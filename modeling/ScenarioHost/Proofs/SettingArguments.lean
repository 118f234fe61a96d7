import ScenarioHost.Proofs.SettingTexts

/-!
Settings on a command line. The text of a setting stands after `--setting`, or after an `=` in the
same argument, and is read as soon as the next option comes. So a command line is accepted only if
each of these texts can be read, and its settings are what they are read as.
-/
namespace ScenarioHost.CommandLine

def inlineSetting? (arg : String) : Option String :=
  ("--setting=".toList.isPrefixOf? arg.toList).map String.ofList

def settingTexts : List String → List String
  | [] => []
  | "--" :: _ => []
  | "--setting" :: raw :: rest => raw :: settingTexts rest
  | arg :: rest => (inlineSetting? arg).toList ++ settingTexts rest

theorem setting_texts_cons {arg : String} {rest : List String} (hend : arg ≠ "--")
    (hbare : ∀ raw later, arg = "--setting" → rest = raw :: later → False) :
    settingTexts (arg :: rest) = (inlineSetting? arg).toList ++ settingTexts rest := by
  rw [settingTexts]
  · exact hend
  · exact hbare

def textsOf (o : Opt) (values : List String) : List String :=
  match o, values with
  | .setting, raw :: _ => [raw]
  | _, _ => []

theorem texts_of_nil (o : Opt) : textsOf o [] = [] := by
  cases o <;> rfl

/-- The first value of an option counts. -/
theorem texts_of_cons (o : Opt) (raw : String) (values : List String) :
    textsOf o (raw :: values) = textsOf o [raw] := by
  cases o <;> rfl

theorem texts_of_other {o : Opt} (h : o ≠ .setting) (values : List String) :
    textsOf o values = [] := by
  cases o with
  | setting => exact absurd rfl h
  | _ => rfl

namespace State

def waiting (s : State) : List String :=
  match s.pending with
  | some (o, values) => textsOf o values
  | none => []

def promised (s : State) : List (Except String (String × String)) :=
  s.options.settings.map Except.ok ++ s.waiting.map parseSetting

def Fed (s : State) : Prop := s.pending ≠ some (.setting, [])

end State

structure Takes (s s' : State) (texts : List String) : Prop where
  trailing : s'.trailing = s.trailing
  promised : s'.promised = s.promised ++ texts.map parseSetting

structure Settles (s s' : State) : Prop extends Takes s s' [] where
  fed : s.Fed
  pending : s'.pending = none

structure Receives (s s' : State) (arg : String) : Prop where
  inline : s.Fed → Takes s s' (inlineSetting? arg).toList
  text : ¬ s.Fed → Takes s s' [arg]
  fed : s.Fed → arg ≠ "--setting" → s'.Fed
  refed : ¬ s.Fed → s'.Fed

variable {raw : String}

theorem bind_ok_iff {ε α β : Type} {x : Except ε α} {f : α → Except ε β} {b : β} :
    (x >>= f) = .ok b ↔ ∃ a, x = .ok a ∧ f a = .ok b := by
  cases x with
  | error e =>
    refine iff_of_false nofun ?_
    rintro ⟨a, ha, -⟩
    cases ha
  | ok a => exact ⟨fun h => ⟨a, rfl, h⟩, fun ⟨_, ha, h⟩ => Except.ok.inj ha ▸ h⟩

theorem of_parsed_ok {α : Type} {o : Opt} {x : Except String α} {a : α}
    (h : ofParsed o raw x = .ok a) : x = .ok a := by
  cases x with
  | error e => cases h
  | ok b => exact congrArg Except.ok (Except.ok.inj h)

theorem nonempty_ok {o : Opt} {set set' : Options} (h : nonempty o raw set = .ok set') :
    set' = set := by
  unfold nonempty at h
  split at h
  · cases h
  · exact (Except.ok.inj h).symm

/-- The option for settings adds one, and no other option concerns them. -/
theorem settings_of_set {s s' : Options} {o : Opt} (h : setValue s o raw = .ok s') :
    s'.settings.map Except.ok =
      s.settings.map Except.ok ++ (textsOf o [raw]).map parseSetting := by
  cases o with
  | setting =>
    obtain ⟨setting, hparsed, hset⟩ := bind_ok_iff.mp h
    obtain rfl := Except.ok.inj hset
    have hread : parseSetting raw = .ok setting := of_parsed_ok hparsed
    simp only [textsOf, List.map_append, List.map_cons, List.map_nil, hread]
  | language =>
    obtain rfl := Except.ok.inj h
    exact (List.append_nil _).symm
  | ticks | delta =>
    obtain ⟨_, -, hset⟩ := bind_ok_iff.mp h
    obtain rfl := Except.ok.inj hset
    exact (List.append_nil _).symm
  | config | scripts | stubs | luarc =>
    obtain rfl := nonempty_ok h
    exact (List.append_nil _).symm

section Steps

variable {s s' : State} {arg : String}

theorem Takes.trans {t : State} {texts texts' : List String} (h : Takes s t texts)
    (h' : Takes t s' texts') : Takes s s' (texts ++ texts') := by
  refine ⟨h'.trailing.trans h.trailing, ?_⟩
  rw [h'.promised, h.promised, List.map_append, List.append_assoc]

theorem promised_settled (h : s.pending = none) :
    s.promised = s.options.settings.map Except.ok := by
  unfold State.promised State.waiting
  rw [h]
  exact List.append_nil _

theorem promised_waiting {o : Opt} {values : List String} (h : s.pending = some (o, values)) :
    s.promised = s.options.settings.map Except.ok ++ (textsOf o values).map parseSetting := by
  unfold State.promised State.waiting
  rw [h]

theorem fed_settled (h : s.pending = none) : s.Fed := by
  unfold State.Fed
  rw [h]
  exact nofun

theorem Settles.fed_after (h : Settles s s') : s'.Fed := fed_settled h.pending

theorem Takes.of_settled {texts : List String} (h : s.pending = none) (h' : s'.pending = none)
    (htrailing : s'.trailing = s.trailing)
    (hsettings : s'.options.settings.map Except.ok =
      s.options.settings.map Except.ok ++ texts.map parseSetting) : Takes s s' texts := by
  refine ⟨htrailing, ?_⟩
  rw [promised_settled h, promised_settled h', hsettings]

/-- Where nothing waits, an option is taken over as it is. -/
theorem settle_ok {o : Opt} {values : List String} (hpending : s.pending = none)
    (h : settle s o values = .ok s') :
    (o = .setting → values ≠ []) ∧ s'.pending = none ∧ Takes s s' (textsOf o values) := by
  unfold settle at h
  split at h
  · cases h
  · rename_i hvalue
    split at h
    · cases h
    · have hgiven : o = .setting → values ≠ [] := by
        rintro rfl rfl
        exact hvalue rfl
      refine ⟨hgiven, ?_⟩
      cases values with
      | nil =>
        obtain rfl := Except.ok.inj h
        have hbare : (setBare s.options o).settings = s.options.settings := by cases o <;> rfl
        refine ⟨hpending, .of_settled hpending hpending rfl ?_⟩
        rw [texts_of_nil]
        exact (congrArg (List.map Except.ok) hbare).trans (List.append_nil _).symm
      | cons raw values =>
        obtain ⟨options, hset, hs'⟩ := bind_ok_iff.mp h
        obtain rfl := Except.ok.inj hs'
        refine ⟨hpending, .of_settled hpending hpending rfl ?_⟩
        rw [texts_of_cons]
        exact settings_of_set hset

/-- When an option that waits is taken over, all that was promised of it is there. -/
theorem settle_pending_ok (h : settlePending s = .ok s') : Settles s s' := by
  unfold settlePending at h
  split at h
  · rename_i hpending
    obtain rfl := Except.ok.inj h
    exact ⟨⟨rfl, (List.append_nil _).symm⟩, fed_settled hpending, hpending⟩
  · rename_i o values hpending
    obtain ⟨hgiven, hnone, htrailing, hpromised⟩ := settle_ok rfl h
    refine ⟨⟨htrailing, ?_⟩, ?_, hnone⟩
    · rw [hpromised, promised_settled rfl, promised_waiting hpending]
      exact (List.append_nil _).symm
    · intro hstarved
      obtain ⟨rfl, rfl⟩ := Prod.mk.inj (Option.some.inj (hpending.symm.trans hstarved))
      exact hgiven rfl rfl

theorem set_flag_ok {name : String} (h : setFlag s name = .ok s') : Settles s s' := by
  obtain ⟨t, hsettled, hs'⟩ := bind_ok_iff.mp h
  obtain ⟨⟨htrailing, hpromised⟩, hfed, hpending⟩ := settle_pending_ok hsettled
  split at hs'
  · cases hs'
  · split at hs'
    · cases hs'
    · split at hs'
      · cases hs'
      · obtain rfl := Except.ok.inj hs'
        exact ⟨⟨htrailing, hpromised⟩, hfed, hpending⟩

theorem read_positional_ok (h : readPositional s arg = .ok s') : Settles s s' := by
  unfold readPositional at h
  split at h
  · cases h
  · obtain ⟨t, hsettled, hs'⟩ := bind_ok_iff.mp h
    obtain rfl := Except.ok.inj hs'
    obtain ⟨⟨htrailing, hpromised⟩, hfed, hpending⟩ := settle_pending_ok hsettled
    exact ⟨⟨htrailing, hpromised⟩, hfed, hpending⟩

/-- An argument that is no option: the text that is waited for, or a further value. -/
theorem read_plain_ok (h : readPlain s arg = .ok s') :
    s'.Fed ∧ (s.Fed → Takes s s' []) ∧ (¬ s.Fed → Takes s s' [arg]) := by
  unfold readPlain at h
  split at h
  · rename_i o values hpending _
    obtain rfl := Except.ok.inj h
    -- once an option has a value it waits for none
    have hfed : some (o, values ++ [arg]) ≠ some (Opt.setting, []) := by
      intro hstarved
      have hvalues := (Prod.mk.inj (Option.some.inj hstarved)).2
      exact List.append_ne_nil_of_right_ne_nil values (List.cons_ne_nil arg []) hvalues
    have htakes {texts : List String}
        (htexts : textsOf o (values ++ [arg]) = textsOf o values ++ texts) :
        Takes s { s with pending := some (o, values ++ [arg]), open_ := false } texts := by
      refine ⟨rfl, ?_⟩
      rw [promised_waiting rfl, promised_waiting hpending, htexts, List.map_append, List.append_assoc]
    refine ⟨hfed, fun hs => htakes ?_, fun hs => htakes ?_⟩
    · rw [List.append_nil]
      cases values with
      | nil =>
        have hother : o ≠ .setting := by
          rintro rfl
          exact hs hpending
        rw [texts_of_other hother, texts_of_other hother]
      | cons raw values =>
        rw [List.cons_append, texts_of_cons]
        exact (texts_of_cons o raw values).symm
    · obtain ⟨rfl, rfl⟩ := Prod.mk.inj (Option.some.inj (hpending.symm.trans (not_not.mp hs)))
      rfl
  · -- with no option before it the argument has a place of its own
    have hsettles := read_positional_ok h
    exact ⟨hsettles.fed_after, fun _ => hsettles.toTakes,
      fun hstarved => absurd hsettles.fed hstarved⟩

/-- A long option is cut at its first `=`. -/
theorem split_long_iff {cs : List Char} {name value : String} :
    splitLong cs = (name, some value) ↔
      cs = name.toList ++ '=' :: value.toList ∧ '=' ∉ name.toList := by
  constructor
  · intro h
    have hmem : '=' ∈ cs := by
      by_contra hnot
      rw [splitLong, (uncut_at_equals hnot).2] at h
      cases h
    obtain ⟨front, rest, rfl, hfront⟩ := List.eq_append_cons_of_mem hmem
    obtain ⟨htake, hdrop⟩ := cut_at_equals hfront rest
    rw [splitLong, htake, hdrop] at h
    obtain ⟨rfl, hvalue⟩ := Prod.mk.inj h
    obtain rfl := Option.some.inj hvalue
    rw [String.toList_ofList, String.toList_ofList]
    exact ⟨rfl, hfront⟩
  · rintro ⟨rfl, hname⟩
    obtain ⟨htake, hdrop⟩ := cut_at_equals hname value.toList
    rw [splitLong, htake, hdrop]
    dsimp only
    rw [String.ofList_toList, String.ofList_toList]

theorem split_long_bare {cs : List Char} {name : String} (h : splitLong cs = (name, none)) :
    cs = name.toList := by
  have hnot : '=' ∉ cs := by
    intro hmem
    obtain ⟨front, rest, rfl, hfront⟩ := List.eq_append_cons_of_mem hmem
    rw [splitLong, (cut_at_equals hfront rest).2] at h
    cases h
  rw [splitLong, (uncut_at_equals hnot).1, (uncut_at_equals hnot).2] at h
  obtain ⟨rfl, -⟩ := Prod.mk.inj h
  exact String.toList_ofList.symm

/-- An option with its text in one argument, as the argument is read. -/
theorem inline_iff {cs : List Char} {raw : String} (h : arg.toList = '-' :: '-' :: cs) :
    inlineSetting? arg = some raw ↔ splitLong cs = ("setting", some raw) := by
  have hequals : '=' ∉ "setting".toList := by decide
  have hprefix : ("--setting=".toList.isPrefixOf? arg.toList = some raw.toList) ↔
      cs = "setting".toList ++ '=' :: raw.toList := by
    rw [List.isPrefixOf?_eq_some_iff_append_eq, h]
    constructor
    · intro heq
      exact (List.cons.inj (List.cons.inj heq).2).2.symm
    · rintro rfl
      rfl
  rw [split_long_iff, and_iff_left hequals, ← hprefix, inlineSetting?, Option.map_eq_some_iff]
  constructor
  · rintro ⟨rest, hrest, rfl⟩
    exact hrest.trans (congrArg some String.toList_ofList.symm)
  · intro hrest
    exact ⟨raw.toList, hrest, String.ofList_toList⟩

theorem inline_none (h : ∀ cs, arg.toList ≠ '-' :: '-' :: cs) : inlineSetting? arg = none := by
  refine Option.map_eq_none_iff.mpr (Option.eq_none_iff_forall_ne_some.mpr fun rest hrest => ?_)
  exact h _ (List.isPrefixOf?_eq_some_iff_append_eq.mp hrest).symm

theorem of_name_some {name : String} {o : Opt} (h : Opt.ofName? name = some o) : o.name = name := by
  have hfound := List.find?_some h
  exact of_decide_eq_true hfound

theorem name_setting_iff {o : Opt} : o.name = "setting" ↔ o = .setting := by
  cases o <;> decide

/-- A long option without a text of its own is no setting. -/
theorem inline_bare {cs : List Char} {name : String} (h : arg.toList = '-' :: '-' :: cs)
    (hsplit : splitLong cs = (name, none)) : inlineSetting? arg = none := by
  refine Option.eq_none_iff_forall_ne_some.mpr fun raw hraw => ?_
  have hsetting := (inline_iff h).mp hraw
  rw [hsplit] at hsetting
  cases hsetting

/-- The texts of settings that a long option gives in its own argument. -/
theorem inline_texts {cs : List Char} {o : Opt} {v : String} (h : arg.toList = '-' :: '-' :: cs)
    (hsplit : splitLong cs = (o.name, some v)) :
    (inlineSetting? arg).toList = textsOf o [v] := by
  by_cases hsetting : o = .setting
  · subst hsetting
    rw [(inline_iff h).mpr hsplit]
    rfl
  · have hnone : inlineSetting? arg = none := by
      refine Option.eq_none_iff_forall_ne_some.mpr fun raw hraw => hsetting ?_
      have heq := hsplit.symm.trans ((inline_iff h).mp hraw)
      exact name_setting_iff.mp (congrArg Prod.fst heq)
    rw [hnone, texts_of_other hsetting]
    rfl

/-- A long option takes over what waits. It begins to wait for a text, or has given its own. -/
theorem read_long_ok {cs : List Char} (harg : arg.toList = '-' :: '-' :: cs)
    (h : readLong s cs = .ok s') :
    s.Fed ∧ Takes s s' (inlineSetting? arg).toList ∧ (arg ≠ "--setting" → s'.Fed) := by
  unfold readLong at h
  cases hsplit : splitLong cs with
  | mk name value =>
    rw [hsplit] at h
    dsimp only at h
    split at h
    · rename_i hflag
      cases value with
      | some v => cases h
      | none =>
        have hsettles := set_flag_ok h
        rw [inline_bare harg hsplit]
        exact ⟨hsettles.fed, hsettles.toTakes, fun _ => hsettles.fed_after⟩
    · split at h
      · cases h
      · -- the value stands in the same argument
        rename_i o v ho
        obtain ⟨t, hsettled, hs'⟩ := bind_ok_iff.mp h
        obtain ⟨hwaited, hfed, hpending⟩ := settle_pending_ok hsettled
        obtain ⟨-, hpending', hgiven⟩ := settle_ok hpending hs'
        obtain rfl : o.name = name := of_name_some ho
        rw [inline_texts harg hsplit]
        exact ⟨hfed, hwaited.trans hgiven, fun _ => fed_settled hpending'⟩
      · -- the value is to come, if there is any
        rename_i o ho
        obtain ⟨t, hsettled, hs'⟩ := bind_ok_iff.mp h
        obtain ⟨hwaited, hfed, hpending⟩ := settle_pending_ok hsettled
        obtain rfl := Except.ok.inj hs'
        refine ⟨hfed, ?_, fun hbare hstarved => hbare ?_⟩
        · rw [inline_bare harg hsplit]
          refine hwaited.trans ⟨rfl, ?_⟩
          rw [promised_settled hpending, promised_waiting rfl, texts_of_nil]
        · obtain ⟨rfl, -⟩ := Prod.mk.inj (Option.some.inj hstarved)
          obtain rfl : "setting" = name := of_name_some ho
          rw [← String.toList_inj, harg, split_long_bare hsplit]
          rfl

theorem read_argument_ok (h : readArgument s arg = .ok s') (hend : arg ≠ "--")
    (htrailing : s.trailing = false) : Receives s s' arg := by
  -- none of the options of one letter takes a text
  have hflag {name : String} (hshort : ∀ cs, arg.toList ≠ '-' :: '-' :: cs)
      (h : setFlag s name = .ok s') : Receives s s' arg := by
    have hsettles := set_flag_ok h
    constructor
    · intro _
      rw [inline_none hshort]
      exact hsettles.toTakes
    · exact fun hstarved => absurd hsettles.fed hstarved
    · exact fun _ _ => hsettles.fed_after
    · exact fun _ => hsettles.fed_after
  unfold readArgument at h
  rw [htrailing, if_neg Bool.false_ne_true] at h
  split at h
  · rename_i harg
    exact absurd (String.toList_inj.mp harg) hend
  · rename_i cs _ harg
    obtain ⟨hfed, htakes, hnext⟩ := read_long_ok harg h
    exact ⟨fun _ => htakes, fun hstarved => absurd hfed hstarved, fun _ => hnext,
      fun hstarved => absurd hfed hstarved⟩
  · rename_i harg
    exact hflag (fun cs hcs => nomatch harg.symm.trans hcs) h
  · rename_i harg
    exact hflag (fun cs hcs => nomatch harg.symm.trans hcs) h
  · cases h
  · rename_i _ hlong _ _ _
    obtain ⟨hfed, htakes, hgiven⟩ := read_plain_ok h
    refine ⟨fun hs => ?_, hgiven, fun _ _ => hfed, fun _ => hfed⟩
    rw [inline_none hlong]
    exact htakes hs

/-- The option for settings begins to wait for its text. -/
theorem read_bare (h : readArgument s "--setting" = .ok s') (htrailing : s.trailing = false) :
    Takes s s' [] ∧ ¬ s'.Fed := by
  unfold readArgument at h
  rw [htrailing, if_neg Bool.false_ne_true] at h
  obtain ⟨t, hsettled, hs'⟩ := bind_ok_iff.mp h
  obtain ⟨hwaited, -, hpending⟩ := settle_pending_ok hsettled
  obtain rfl := Except.ok.inj hs'
  refine ⟨hwaited.trans ⟨rfl, ?_⟩, fun hfed => hfed rfl⟩
  rw [promised_settled hpending, promised_waiting rfl]
  rfl

theorem read_end (h : readArgument s "--" = .ok s') (htrailing : s.trailing = false) :
    s' = { s with trailing := true } := by
  unfold readArgument at h
  rw [htrailing, if_neg Bool.false_ne_true] at h
  exact (Except.ok.inj h).symm

/-- After `--` nothing is given that is not given already. -/
theorem read_trailing {args : List String} (h : args.foldlM readArgument s = .ok s')
    (htrailing : s.trailing = true) (hfed : s'.Fed) : s.Fed ∧ s'.promised = s.promised := by
  induction args generalizing s with
  | nil =>
    obtain rfl := Except.ok.inj h
    exact ⟨hfed, rfl⟩
  | cons arg args ih =>
    rw [List.foldlM_cons] at h
    obtain ⟨t, hread, hrest⟩ := bind_ok_iff.mp h
    rw [readArgument, if_pos htrailing] at hread
    have hsettles := read_positional_ok hread
    obtain ⟨-, hlater⟩ := ih hrest (hsettles.trailing.trans htrailing)
    exact ⟨hsettles.fed, (hlater.trans hsettles.promised).trans (List.append_nil _)⟩

/-- Arguments give the texts of settings that are among them. -/
theorem read_arguments {args : List String} (h : args.foldlM readArgument s = .ok s')
    (htrailing : s.trailing = false) (hs : s.Fed) (hfed : s'.Fed) :
    s'.promised = s.promised ++ (settingTexts args).map parseSetting := by
  -- on the arguments as their texts are found, so two at a time where an option waits for its text
  induction args using settingTexts.induct generalizing s with
  | case1 =>
    obtain rfl := Except.ok.inj h
    exact (List.append_nil _).symm
  | case2 rest =>
    rw [List.foldlM_cons] at h
    obtain ⟨t, hread, hrest⟩ := bind_ok_iff.mp h
    obtain rfl := read_end hread htrailing
    have hlater := (read_trailing hrest rfl hfed).2
    exact hlater.trans (List.append_nil _).symm
  | case3 raw rest ih =>
    rw [List.foldlM_cons] at h
    obtain ⟨t, hbare, hwaiting⟩ := bind_ok_iff.mp h
    rw [List.foldlM_cons] at hwaiting
    obtain ⟨u, hread, hrest⟩ := bind_ok_iff.mp hwaiting
    obtain ⟨htakes, hstarved⟩ := read_bare hbare htrailing
    have ht := htakes.trailing.trans htrailing
    -- the option does not get its text from behind the mark
    have hend : raw ≠ "--" := by
      rintro rfl
      obtain rfl := read_end hread ht
      exact hstarved (read_trailing hrest rfl hfed).1
    have hreceives := read_argument_ok hread hend ht
    have htext := hreceives.text hstarved
    have hlater := ih hrest (htext.trailing.trans ht) (hreceives.refed hstarved)
    calc s'.promised
      _ = t.promised ++ [parseSetting raw] ++ (settingTexts rest).map parseSetting := by
        rw [hlater, htext.promised]
        rfl
      _ = s.promised ++ (parseSetting raw :: (settingTexts rest).map parseSetting) := by
        rw [htakes.promised, List.append_assoc, List.map_nil, List.append_nil]
        rfl
  | case4 arg rest hend hbare ih =>
    rw [List.foldlM_cons] at h
    obtain ⟨t, hread, hrest⟩ := bind_ok_iff.mp h
    have hreceives := read_argument_ok hread hend htrailing
    have htakes := hreceives.inline hs
    have hnext : t.Fed := by
      refine hreceives.fed hs ?_
      rintro rfl
      cases rest with
      | nil =>
        obtain rfl := Except.ok.inj hrest
        exact (read_bare hread htrailing).2 hfed
      | cons raw rest => exact hbare raw rest rfl rfl
    have hlater := ih hrest (htakes.trailing.trans htrailing) hnext
    rw [setting_texts_cons hend hbare, hlater, htakes.promised, List.map_append, List.append_assoc]

end Steps

/-- The settings of a command line are what its texts are read as. -/
theorem parse_settings {args : List String} {options : Options} (h : parse args = .ok options) :
    ReadAs (settingTexts args) options.settings := by
  obtain ⟨s, hread, hlast⟩ := bind_ok_iff.mp h
  obtain ⟨s', hsettled, hoptions⟩ := bind_ok_iff.mp hlast
  obtain rfl := Except.ok.inj hoptions
  obtain ⟨⟨-, hpromised⟩, hfed, hpending⟩ := settle_pending_ok hsettled
  have hall := read_arguments hread rfl (fed_settled rfl) hfed
  unfold ReadAs
  rw [← promised_settled hpending, hpromised, hall]
  exact (List.append_nil _).symm

end ScenarioHost.CommandLine
