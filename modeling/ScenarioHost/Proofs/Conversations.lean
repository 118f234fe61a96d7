import ScenarioHost.Proofs.Annals
import ScenarioHost.Proofs.Callbacks

/-!
Conversations. Message and replies are taken away as soon as a reply is chosen, before its callback
starts; whatever is there when it ends was said by scripts in the meantime. A failure brings nothing
back.
-/
namespace ScenarioHost

open Callbacks (Invocation invoke selectReply)
open Conversion (ofEntity)
open Lua (Evaluator Site Spot Value)

namespace SessionOp

def onComms (op : SessionOp) (c : Comms) : Comms :=
  match op with
  | .commsMessage text => { c with message := some text }
  | .reply label callback => { c with replies := c.replies ++ [⟨label, callback⟩] }
  | .requestGm => { c with gmRequested := true }
  | .resetComms => .empty
  | .beginReply => { c with message := none, replies := [] }
  | _ => c

theorem comms_apply (op : SessionOp) (s : Session) : (op.apply s).comms = op.onComms s.comms := by
  cases op with
  | advance delta =>
    have hsame : (s.advance delta).comms = s.comms := by
      unfold Session.advance
      split <;> rfl
    exact hsame
  | _ => rfl

/-- Scripts have no function that starts a conversation afresh. -/
theorem ne_resetComms {l : List Happening} (hl : ∀ h ∈ l, h.ByScripts) :
    ∀ op ∈ l.filterMap Happening.op?, op ≠ .resetComms := by
  intro op hop
  obtain ⟨h, hh, hop⟩ := List.mem_filterMap.mp hop
  rintro rfl
  have hscripts := hl h hh
  cases h with
  | change op =>
    obtain rfl : op = .resetComms := Option.some.inj hop
    rcases hscripts with hscripted | ⟨delta, hdelta⟩
    · exact hscripted
    · cases hdelta
  | begins v t => cases v <;> cases hop
  | _ => cases hop

end SessionOp

def Affair.OfComms : Affair → Prop
  | .session (.commsMessage _) => True
  | .session (.reply ..) => True
  | .session .requestGm => True
  | .session .resetComms => True
  | .session .beginReply => True
  | _ => False

def commsFunctions : List Builtin :=
  [.host .setCommsMessage, .host .addCommsReply, .host .commsSwitchToGm, .control .selectReply]

theorem Affair.OfComms.functions {affair : Affair} (h : affair.OfComms) :
    affair.functions ⊆ commsFunctions := by
  have hone {b : Builtin} (hb : b ∈ commsFunctions) : [b] ⊆ commsFunctions :=
    List.cons_subset.mpr ⟨hb, List.nil_subset _⟩
  cases affair with
  | overlay => exact h.elim
  | session op =>
    cases op with
    | commsMessage text => exact hone (by decide)
    | reply label callback => exact hone (by decide)
    | requestGm => exact hone (by decide)
    | beginReply => exact hone (by decide)
    | resetComms => exact List.nil_subset _
    | _ => exact h.elim

/-- Other operations leave the conversation as it is. -/
theorem SessionOp.comms_other {op : SessionOp} (hop : ¬ Affair.OfComms (.session op))
    (s : Session) : (op.apply s).comms = s.comms := by
  rw [op.comms_apply]
  cases op with
  | commsMessage text => exact (hop trivial).elim
  | reply label callback => exact (hop trivial).elim
  | requestGm => exact (hop trivial).elim
  | resetComms => exact (hop trivial).elim
  | beginReply => exact (hop trivial).elim
  | _ => rfl

def Comms.awaiting (c : Comms) : Comms := ⟨none, [], c.gmRequested⟩

def World.awaiting (w : World) (s : Session) : World :=
  { w with session := some { s with comms := s.comms.awaiting } }

/-- What can be said of the choice of replies in a world with this session. -/
structure World.ReplyLaw (w : World) (s : Session) : Prop where
  absent (run : Evaluator) (site : Site) (i source target : Nat) : s.comms.replies.length ≤ i →
    selectReply run site i source target w = .done false w
  /-- What stood at the place is invoked when the conversation has been cleared. -/
  chosen (run : Evaluator) (site : Site) (i source target : Nat) (r : Choice) :
    s.comms.replies[i]? = some r →
    selectReply run site i source target w =
      match invoke run site r.callback [ofEntity source, ofEntity target] (w.awaiting s) with
      | .done _ w' => .done true w'
      | .raised e w' => .raised e (w'.addError (r.label ++ ": " ++ e.message))
      | @Outcome.starved _ _ w' => @Outcome.starved _ _ w'
  /-- The function is called once. -/
  called (run : Evaluator) (site : Site) (c : Callback) (args : List Value) :
    w.isAlive c.environment = true →
    invoke run site c args (w.awaiting s) =
      match Boundary.call run c.environment site (.function c.function) args
          ((w.awaiting s).enter c.environment) with
      | .done values w' => .done values (w'.leave c.environment)
      | .raised e w' => .raised (.runtime e.message) (w'.leave c.environment)
      | @Outcome.starved _ _ w' => @Outcome.starved _ _ w'
  gone (run : Evaluator) (site : Site) (i source target : Nat) (r : Choice) :
    s.comms.replies[i]? = some r → w.isAlive r.callback.environment = false →
    selectReply run site i source target w = .raised .invalidHandle
      ((w.awaiting s).addError (r.label ++ ": " ++ ScriptError.invalidHandle.message))
  /-- However the callback ends, and at any moment before, the conversation is what has been made of
  the cleared one. -/
  inside (stop : (k : Lua.Kind) → Lua.Task k → World → Bool) (limit fuel : Nat) (site : Site)
    (i source target : Nat) (r : Choice) : s.comms.replies[i]? = some r → ∃ l,
      Annals (Engine.StoppedBy stop) (w.awaiting s) l (invoke (Engine.stopped stop limit fuel) site
        r.callback [ofEntity source, ofEntity target] (w.awaiting s)).moment ∧
      (∀ op ∈ l.filterMap Happening.op?, op ≠ .resetComms) ∧
      ∃ s', (selectReply (Engine.stopped stop limit fuel) site i source target w).world.session =
          some s' ∧
        s'.comms =
          (l.filterMap Happening.op?).foldl (fun c op => op.onComms c) s.comms.awaiting
  /-- Code in which none of the functions is called leaves the conversation alone. -/
  others (stop : (k : Lua.Kind) → Lua.Task k → World → Bool) (limit fuel : Nat) :
    Engine.StopsAt commsFunctions stop →
    (∀ k (t : Lua.Task k), ∃ s', (Engine.stopped stop limit fuel k t w).world.session = some s' ∧
      s'.comms = s.comms) ∧
    ∀ site i source target r, s.comms.replies[i]? = some r → ∃ s',
      (selectReply (Engine.stopped stop limit fuel) site i source target w).world.session =
        some s' ∧ s'.comms = s.comms.awaiting
  /-- Scripts speak by functions that change the session as they say and do nothing else. -/
  spoken (run : Evaluator) (spot : Spot) (f : HostFunction) (args : List Value)
    (request : Except HostError SessionOp) :
    Interface.requested spot.env args (w.heap spot.env) f = some request →
    Interface.callHost run spot f args w =
      match request with
      | .ok op => .done [] { w with session := some (op.apply s) }
      | .error e => .raised e w

namespace World

variable {w : World} {s : Session} (hs : w.session = some s)

include hs

theorem opened_reply (i source target : Nat) :
    (Invocation.reply i source target).opened w = w.awaiting s := by
  change w.modifySession Session.beginReply = _
  unfold modifySession
  rw [hs]
  rfl

theorem target_reply {i : Nat} {r : Choice} (hr : s.comms.replies[i]? = some r)
    (source target : Nat) :
    (Invocation.reply i source target).target? w =
      some ⟨r.label, r.callback, [ofEntity source, ofEntity target]⟩ := by
  have hreply : w.session.bind (·.reply? i) = some r := by
    rw [hs]
    exact hr
  exact congrArg (Option.map _) hreply

theorem selectReply_eq (run : Evaluator) (site : Site) {i source target : Nat} {r : Choice}
    (hr : s.comms.replies[i]? = some r) :
    selectReply run site i source target w =
      Callbacks.report run site r.label r.callback [ofEntity source, ofEntity target]
        (w.awaiting s) := by
  rw [← opened_reply hs i source target]
  exact Invocation.perform_present run site w (target_reply hs hr source target)

theorem replyLaw : w.ReplyLaw s where
  absent run site i source target hi := by
    have hnone : w.session.bind (·.reply? i) = none := by
      rw [hs]
      exact List.getElem?_eq_none hi
    exact Invocation.perform_absent (v := .reply i source target) run site w
      (congrArg (Option.map _) hnone)
  chosen run site i source target r hr :=
    (selectReply_eq hs run site hr).trans (Callbacks.report_apply ..)
  called run site c args halive :=
    (Callbacks.invoke_apply run site (w.awaiting s) c args).trans (if_pos halive)
  gone run site i source target r hr hgone := by
    rw [selectReply_eq hs run site hr]
    exact Callbacks.report_of_not_alive run site r.label _ hgone
  inside stop limit fuel site i source target r hr := by
    obtain ⟨l, hcode, hinside⟩ := Callbacks.annals_invoke limit fuel (Engine.minds_all stop) site
      r.callback [ofEntity source, ofEntity target] (w.awaiting s)
    have hscripts : ∀ h ∈ l, h.ByScripts := fun h hh => (hcode h hh).1
    obtain ⟨s', hs', hcomms⟩ := hinside.read_by_scripts Session.comms SessionOp.onComms
      SessionOp.comms_apply (fun _ => rfl) hscripts rfl
    -- the report of a failure does not touch the session, so nothing is brought back
    have hsession := Invocation.session_perform (Engine.stopped stop limit fuel) site
      (target_reply hs hr source target)
    rw [opened_reply hs] at hsession
    exact ⟨l, hinside, SessionOp.ne_resetComms hscripts, s', hsession.trans hs', hcomms⟩
  others stop limit fuel hstop := by
    -- scripts have no other functions for it, so that halting at these is enough
    have hminds : Engine.Minds (fun affair => ¬ affair.OfComms) stop :=
      hstop.minds fun affair haffair => (not_not.mp haffair).functions
    constructor
    · exact Engine.part_stays limit fuel hminds Session.comms (fun _ => SessionOp.comms_other)
        (fun _ => rfl) hs
    · intro site i source target r hr
      obtain ⟨s', hs', hcomms⟩ := Callbacks.part_stays (w := w.awaiting s) limit fuel hminds
        Session.comms (fun _ => SessionOp.comms_other) (fun _ => rfl) rfl site r.callback
        [ofEntity source, ofEntity target]
      have hsession := Invocation.session_perform (Engine.stopped stop limit fuel) site
        (target_reply hs hr source target)
      rw [opened_reply hs] at hsession
      exact ⟨s', hsession.trans hs', hcomms⟩
  spoken run spot f args request hf := by
    rw [Interface.callHost_requested run spot hf]
    cases request with
    | ok op => exact Interface.changeSession_of_some hs op.apply
    | error e => rfl

end World

/-- Choosing a reply clears the conversation and leaves the rest to its callback. -/
theorem replies_continue_conversations (w : World) (s : Session) (hs : w.session = some s) :
    w.ReplyLaw s := World.replyLaw hs

/-- A conversation with two replies: one asks for the game master, the environment of the other does
not exist. -/
def World.talking : World :=
  (Host.performAll (Engine.stopped (fun _ _ _ => false) 10 10) []
    [.create, .session (.commsMessage "Yes?"), .session (.reply "Talk" ⟨⟨0⟩, ⟨112⟩⟩),
      .session (.reply "Leave" ⟨⟨1⟩, ⟨112⟩⟩)]
    (World.new { Config.default with bootstrap := [] } default)).world

theorem talk_requests_gm :
    (selectReply (Engine.engine 10 10) .outside 0 7 8 World.talking).world.session.map
      Session.comms = some ⟨none, [], true⟩ ∧
    (selectReply (Engine.engine 10 10) .outside 1 7 8 World.talking).world.session.map
      Session.comms = some ⟨none, [], false⟩ ∧
    selectReply (Engine.engine 10 10) .outside 2 7 8 World.talking = .done false World.talking := by
  obtain ⟨s, hs, hreplies⟩ : ∃ s, World.talking.session = some s ∧
      s.comms = ⟨some "Yes?", [⟨"Talk", ⟨⟨0⟩, ⟨112⟩⟩⟩, ⟨"Leave", ⟨⟨1⟩, ⟨112⟩⟩⟩], false⟩ :=
    ⟨_, rfl, rfl⟩
  have hlaw := replies_continue_conversations World.talking s hs
  have hfirst : s.comms.replies[0]? = some ⟨"Talk", ⟨⟨0⟩, ⟨112⟩⟩⟩ := by
    rw [hreplies]
    rfl
  have hsecond : s.comms.replies[1]? = some ⟨"Leave", ⟨⟨1⟩, ⟨112⟩⟩⟩ := by
    rw [hreplies]
    rfl
  have hlength : s.comms.replies.length ≤ 2 := by
    rw [hreplies]
    decide
  refine ⟨?_, ?_, ?_⟩
  · rw [hlaw.chosen _ _ 0 7 8 _ hfirst]
    obtain rfl : _ = s := Option.some.inj hs
    decide +kernel
  · rw [hlaw.gone _ _ 1 7 8 _ hsecond (by decide)]
    change some s.comms.awaiting = _
    rw [hreplies]
    rfl
  · exact hlaw.absent _ _ 2 7 8 hlength

end ScenarioHost
