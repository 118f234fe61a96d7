import ScenarioHost.Proofs.Callbacks
import ScenarioHost.Proofs.Lockstep.Engine

/-!
Errors of the host on their way out of scripts. A call of `require` that fails raises an error
object in its environment; the calls around it raise that object, up to one that handles errors, and
the host gets the error back as it was.
-/
namespace ScenarioHost

open Lua (Evaluator FunctionId Heap Site Spot TableId Value)

namespace World

variable (w : World) (e : EnvironmentId)

def withError (cause : HostError) : World :=
  w.modifyHeap e fun h => h.addUserdata ⟨.error (.callback cause), h.errorMeta⟩

def withErrors (causes : List HostError) : World := causes.foldl (fun w c => w.withError e c) w

def Carries (v : Value) (message : String) : Prop :=
  ∃ cause, Conversion.hostError? (w.heap e) v = some cause ∧ cause.message = message

theorem with_errors_append (first second : List HostError) :
    (w.withErrors e first).withErrors e second = w.withErrors e (first ++ second) :=
  List.foldl_append.symm

theorem allocated_withErrors (causes : List HostError) :
    (w.withErrors e causes).Allocated e ↔ w.Allocated e := by
  induction causes generalizing w with
  | nil => exact Iff.rfl
  | cons cause causes ih =>
    refine (ih (w.withError e cause)).trans ?_
    rw [Allocated, withError, modifyHeap, size_modifyEnvironment, Allocated]

theorem heap_modifyHeap (h : w.Allocated e) (f : Heap → Heap) :
    (w.modifyHeap e f).heap e = f (w.heap e) := by
  unfold heap modifyHeap
  rw [Recounts.environment_self w e h]

/-- The object of a new error carries it. -/
theorem carries_withError (h : w.Allocated e) (cause : HostError) :
    (w.withError e cause).Carries e (.userdata (w.heap e).nextUserdata) cause.message := by
  refine ⟨.callback cause, ?_, rfl⟩
  unfold Conversion.hostError? Conversion.payload?
  rw [withError, w.heap_modifyHeap e h]
  simp [Heap.userdata?, Heap.addUserdata, Heap.nextUserdata]

end World

namespace Boundary

variable {run : Evaluator} {e : EnvironmentId} {site : Site} {w w' : World}

theorem in_script_congr {α : Type} {x y : Act HostError α} (h : x w = y w') :
    inScript e x w = inScript e y w' := by
  unfold inScript
  rw [Act.bind_apply, Act.bind_apply, Act.attempt_apply, Act.attempt_apply, h]

/-- A host error enters the environment. -/
theorem in_script_raised {α : Type} {x : Act HostError α} {cause : HostError}
    (hx : x w = .raised cause w') :
    inScript e x w = .raised (.userdata (w'.heap e).nextUserdata) (w'.withError e cause) := by
  unfold inScript
  rw [Act.bind_apply, Act.attempt_apply, hx]
  rfl

theorem in_script_starved {α : Type} {x : Act HostError α}
    (hx : x w = @Outcome.starved _ _ w') : inScript e x w = @Outcome.starved _ _ w' := by
  unfold inScript
  rw [Act.bind_apply, Act.attempt_apply, hx]

/-- An error that a script was handed by the host leaves the environment as it came in. -/
theorem from_host_carried {α : Type} {x : Act Value α} {v : Value} {message : String}
    (hx : x w = .raised v w') (hv : w'.Carries e v message) :
    ∃ cause, fromHost run e site x w = .raised cause w' ∧ cause.message = message := by
  obtain ⟨cause, hcause, hmessage⟩ := hv
  refine ⟨cause, ?_, hmessage⟩
  unfold fromHost
  rw [Act.bind_apply, Act.attempt_apply, hx]
  simp only [Act.bind_apply, errorOf, Act.readHeap, Act.read, hcause]
  rfl

end Boundary

namespace Lua.Heap

theorem function_of_builtin {h : Heap} {f : Value} {b : Builtin} (hf : h.builtin? f = some b) :
    ∃ id, f = .function id ∧ h.function? id = some (.builtin b) := by
  cases f with
  | function id =>
    refine ⟨id, rfl, ?_⟩
    unfold builtin? at hf
    cases hfun : h.function? id with
    | none => simp [hfun] at hf
    | some g =>
      cases g with
      | builtin b' => simpa [hfun] using hf
      | _ => simp [hfun] at hf
  | _ => cases hf

end Lua.Heap

/-- An environment that has functions was made. -/
theorem World.allocated_of_builtin {w : World} {e : EnvironmentId} {f : Value} {b : Builtin}
    (hf : (w.heap e).builtin? f = some b) : w.Allocated e := by
  by_contra hnot
  obtain ⟨id, rfl, hid⟩ := Lua.Heap.function_of_builtin hf
  have hempty : (default : Environment).heap.functions = #[] := rfl
  rw [heap, w.environment_of_not_allocated e hnot, Heap.function?, hempty] at hid
  cases hid

namespace Engine

namespace Call

def required? (c : Call) (w : World) : Option String :=
  if depthLimit < c.site.depth then none
  else
    match (w.heap c.env).builtin? c.f with
    | some (.host .requireModule) =>
      (Conversion.toText (w.heap c.env) (Value.arg c.args 0)).toOption
    | _ => none

variable {limit fuel : Nat} {env : EnvironmentId} {site : Site} {f : Value} {args : List Value}
  {w : World}

theorem run_builtin (hdepth : ¬ depthLimit < site.depth) {b : Builtin}
    (hf : (w.heap env).builtin? f = some b) :
    run limit ⟨fuel + 1, env, site, f, args⟩ w =
      callBuiltin limit (engine limit fuel) ⟨env, site, none⟩ b args w := by
  obtain ⟨id, rfl, hid⟩ := Heap.function_of_builtin hf
  exact call_function limit (engine limit fuel) env hdepth args hid

theorem required_eq_some {name : String}
    (hname : required? ⟨fuel + 1, env, site, f, args⟩ w = some name) :
    ¬ depthLimit < site.depth ∧ (w.heap env).builtin? f = some (.host .requireModule) ∧
      Conversion.toText (w.heap env) (Value.arg args 0) = .ok name := by
  unfold required? at hname
  dsimp only at hname
  split at hname
  · cases hname
  · rename_i hdepth
    split at hname
    · rename_i hf
      refine ⟨hdepth, hf, ?_⟩
      cases htext : Conversion.toText (w.heap env) (Value.arg args 0) with
      | error e => simp [htext, Except.toOption] at hname
      | ok text => simpa [htext, Except.toOption] using hname
    · cases hname

/-- A call of `require` loads the module on behalf of the script. -/
theorem run_required {name : String}
    (hname : required? ⟨fuel + 1, env, site, f, args⟩ w = some name) :
    run limit ⟨fuel + 1, env, site, f, args⟩ w =
      Boundary.inScript env ((Loading.requireModule (engine limit fuel) env (site.push .host)
        name).mapError HostError.script) w := by
  obtain ⟨hdepth, hf, htext⟩ := required_eq_some hname
  rw [run_builtin hdepth hf]
  refine Boundary.in_script_congr ?_
  unfold Interface.callHost Conversion.argument
  simp only [Act.bind_apply, Act.readHeap, Act.read, htext, Except.mapError, Act.ofExcept]
  rfl

end Call

/-- A call comes to another one: it makes that call in the world `w'`, with no screen in between.
To make an instance of a class is to call its `__init__`. That the watch saw the call shows in that it
matters how it stops. -/
inductive Leads (screen : Builtin → Bool) (limit : Nat) : Call → World → Call → World → Prop where
  | comes (watch : Watch) (stop : World → World) {c : Call} {w w' : World}
      (henv : watch.call.env = c.env)
      (h : watched screen watch limit id c.fuel .values c.task w = @Outcome.starved _ _ w')
      (hsaw : watched screen watch limit stop c.fuel .values c.task w ≠ @Outcome.starved _ _ w') :
      Leads screen limit c w watch.call w'
  | initializes {fuel : Nat} {env : EnvironmentId} {site : Site} {f : Value} {args : List Value}
      {object : TableId} {init : FunctionId} {w w' : World} (hdepth : ¬ depthLimit < site.depth)
      (hf : (w.heap env).builtin? f = some .construct)
      (h : Classes.allocate (engine limit fuel) ⟨env, site, none⟩ args w =
        .done (object, .function init) w') :
      Leads screen limit ⟨fuel + 1, env, site, f, args⟩ w
        ⟨fuel, env, site.push .host, .function init, [.table object]⟩ w'
  | trans {c c' c'' : Call} {w w' w'' : World} : Leads screen limit c w c' w' →
      Leads screen limit c' w' c'' w'' → Leads screen limit c w c'' w''

theorem lawful_watched (screen : Builtin → Bool) (watch : Watch) (limit fuel : Nat) :
    (watched screen watch limit id fuel).Lawful := by
  induction fuel with
  | zero => exact fun k t => .starve
  | succ fuel ih =>
    intro k t
    constructor
    intro w
    cases t with
    | call env site f args =>
      -- a call is stopped in the world as it is, left to the engine, or watched further in
      simp only [watched]
      split
      · exact .here _ w
      · split
        · exact (lawful_engine limit (fuel + 1) .values (.call env site f args)).upholds w
        · exact (lawful_step ih limit .values (.call env site f args)).upholds w
    | expr fr e => exact (lawful_step ih limit .values (.expr fr e)).upholds w
    | stat fr s => exact (lawful_step ih limit .flow (.stat fr s)).upholds w
    | block fr body => exact (lawful_step ih limit .flow (.block fr body)).upholds w
    | load env name source => exact (lawful_step ih limit .loaded (.load env name source)).upholds w

namespace Leads

variable {limit : Nat} {c c' : Call} {w w' : World}

theorem env_eq {screen : Builtin → Bool} (h : Leads screen limit c w c' w') : c'.env = c.env := by
  induction h with
  | comes watch stop henv => exact henv
  | initializes => rfl
  | trans _ _ first second => exact second.trans first

/-- The initialization of an instance, as the call of its class goes on with it. -/
theorem run_construct {fuel : Nat} {env : EnvironmentId} {site : Site} {f : Value}
    {args : List Value} {object : TableId} {init : FunctionId} (hdepth : ¬ depthLimit < site.depth)
    (hf : (w.heap env).builtin? f = some .construct)
    (h : Classes.allocate (engine limit fuel) ⟨env, site, none⟩ args w =
      .done (object, .function init) w') :
    Call.run limit ⟨fuel + 1, env, site, f, args⟩ w =
      Boundary.inScript env
        (do
          let _ ← Boundary.call (engine limit fuel) env (site.push .host) (.function init)
            [.table object]
          return [.table object]) w' := by
  rw [Call.run_builtin hdepth hf]
  refine Boundary.in_script_congr ?_
  rw [Classes.construct_eq, bind_assoc, Act.bind_apply, h]
  dsimp only
  rw [Classes.finish_function, bind_assoc]
  rfl

/-- An error of the host that the inner call raises is an error with its text of the outer call,
which ends there and then. -/
theorem raises (h : Leads Builtin.screens limit c w c' w') {v : Value} {w₁ : World}
    {message : String} (hraised : c'.run limit w' = .raised v w₁)
    (halloc : w₁.Allocated c.env) (hv : w₁.Carries c.env v message) :
    ∃ v' causes, c.run limit w = .raised v' (w₁.withErrors c.env causes) ∧
      (w₁.withErrors c.env causes).Carries c.env v' message := by
  induction h generalizing v w₁ with
  | @comes watch stop c w w' _ h hsaw =>
    -- the engine that is not watched goes on from the call where the other one stopped
    have hcut := (watched_cuts watch limit c.fuel .values c.task).cut w
    exact ⟨v, [], hcut.raises h hsaw hraised, hv⟩
  | @initializes fuel env site f args object init w w' hdepth hf h =>
    -- the host gets the error out of the `__init__` and hands the script a new object for it
    obtain ⟨cause, hcause, hmessage⟩ : ∃ cause, Boundary.call (engine limit fuel) env
        (site.push .host) (.function init) [.table object] w' = .raised cause w₁ ∧
          cause.message = message := Boundary.from_host_carried hraised hv
    refine ⟨.userdata (w₁.heap env).nextUserdata, [cause], ?_, ?_⟩
    · rw [run_construct hdepth hf h]
      refine Boundary.in_script_raised ?_
      rw [Act.bind_apply, hcause]
    · rw [← hmessage]
      exact w₁.carries_withError env halloc cause
  | @trans c c' c'' w w' w'' hfirst hsecond first second =>
    have henv : c'.env = c.env := hfirst.env_eq
    -- the error passes the inner calls first, then the outer ones
    rw [← henv] at halloc hv
    obtain ⟨v', causes, hraised', hv'⟩ := second hraised halloc hv
    rw [henv] at hraised' hv' halloc
    have halloc' := (w₁.allocated_withErrors c.env causes).mpr halloc
    obtain ⟨v'', causes', hraised'', hv''⟩ := first hraised' halloc' hv'
    rw [World.with_errors_append] at hraised'' hv''
    exact ⟨v'', causes ++ causes', hraised'', hv''⟩

end Leads

section Requiring

variable {limit fuel : Nat} {c : Call} {site : Site} {f : Value} {args : List Value}
  {w w₁ w₂ : World} {next : String}
  (hleads : Leads Builtin.screens limit c w ⟨fuel + 1, c.env, site, f, args⟩ w₁)
  (hnext : Call.required? ⟨fuel + 1, c.env, site, f, args⟩ w₁ = some next)

include hleads hnext

/-- A call that comes to require a module which fails to load raises an error with that text. -/
theorem required_raises {error : ScriptError}
    (hfails : Loading.requireModule (engine limit fuel) c.env (site.push .host) next w₁ =
      .raised error w₂) :
    ∃ v causes, c.run limit w = .raised v (w₂.withErrors c.env causes) ∧
      (w₂.withErrors c.env causes).Carries c.env v error.message := by
  have halloc : w₁.Allocated c.env := World.allocated_of_builtin (Call.required_eq_some hnext).2.1
  have hlater : Later w₁ w₂ := by
    have hwithin := Loading.within_requireModule (lawful_engine limit fuel) c.env
      (site.push .host) next
    have hkept := (hwithin.upholds w₁).world_later
    rwa [hfails] at hkept
  have halloc' : w₂.Allocated c.env := hlater.allocated halloc
  have hraised : Call.run limit ⟨fuel + 1, c.env, site, f, args⟩ w₁ =
      .raised (.userdata (w₂.heap c.env).nextUserdata) (w₂.withError c.env (.script error)) := by
    rw [Call.run_required hnext]
    refine Boundary.in_script_raised ?_
    rw [Act.map_error_apply, hfails]
  have hone : (w₂.withErrors c.env [.script error]).Allocated c.env :=
    (w₂.allocated_withErrors c.env _).mpr halloc'
  obtain ⟨v, causes, hv, hcarries⟩ := hleads.raises hraised hone
    (w₂.carries_withError c.env halloc' (.script error))
  refine ⟨v, .script error :: causes, hv, hcarries⟩

end Requiring

end Engine

end ScenarioHost
