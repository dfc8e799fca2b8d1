import BasicLang.Proofs.Action.Convention
import BasicLang.Proofs.Action.Invariant
import BasicLang.Proofs.Typing.Accepted

set_option autoImplicit false

namespace BasicLang

def Ty.magnitude : Ty → Ty
  | .integer => .integer
  | .long => .long
  | .single => .single
  | _ => .double

def Pending.leaves (pending : Pending) : Option Ty :=
  match pending.completion with
  | .pushString => some .string
  | .pushLong => some .long
  | _ => none

namespace Machine

variable {σ : Type}

def resultTy (machine : Machine σ) (builtin : Builtin) (declared : Ty) (arguments : List StackItem) : Ty :=
  if builtin = .abs then
    (arguments.head?.map fun argument => (machine.valueOf argument).ty.magnitude).getD declared
  else declared

def Gives (ty : Ty) (machine : Machine σ) : Prop :=
  match machine.pending with
  | none => ∃ value rest, machine.stack = .value value :: rest ∧ value.ty = ty
  | some pending => pending.leaves = some ty

theorem gives_value {machine : Machine σ} {value : Value} {rest : List StackItem} (isNone : machine.pending = none)
    (stack : machine.stack = .value value :: rest) : machine.Gives value.ty := by
  rw [Gives, isNone]
  exact ⟨value, rest, stack, rfl⟩

/-- Nothing is waited for any more, and a value of the type is above what was on the stack. -/
def Receives (ty : Ty) (below : List StackItem) (machine : Machine σ) : Prop :=
  machine.pending = none ∧ ∃ value, machine.stack = .value value :: below ∧ value.ty = ty

end Machine

theorem Builtin.default_declared {builtin : Builtin} {declared : Ty}
    (returns : builtin.signature.returns = some declared) : declared.default.ty = declared := by
  cases builtin <;> cases returns <;> rfl

namespace Run

variable {σ α : Type} {ty declared : Ty}

def Delivers (ty : Ty) (action : Run σ Unit) : Prop :=
  Ends (fun machine => machine.pending = none) (Machine.Gives ty) action

section Delivers

theorem preserved_idle : Preserved (fun machine : Machine σ => machine.pending = none) fun _ => True where
  pop _ _ _ isNone _ := isNone
  reference _ _ _ _ _ := trivial
  push _ _ isNone := isNone
  write _ _ _ isNone _ _ := isNone
  around _ _ _ _ _ _ isNone := isNone

theorem delivers_seq {first : Run σ α} {next : α → Run σ Unit} {result : α → Prop}
    (maintains : Maintains (fun machine => machine.pending = none) first result)
    (rest : ∀ value, Delivers ty (next value)) : Delivers ty (first >>= next) :=
  ends_seq maintains fun value _ => rest value

theorem delivers_skip {next : α → Run σ Unit} {value : α} (leaves : Delivers ty (next value)) :
    Delivers ty (pure value >>= next) := by
  rwa [pure_bind]

theorem delivers_fail (fault : Fault) : Delivers ty (fail fault : Run σ Unit) := ends_fail fault

theorem delivers_push {value : Value} (isTy : value.ty = ty) : Delivers ty (push value : Run σ Unit) := by
  subst isTy
  exact fun machine isNone => Machine.gives_value isNone rfl

theorem delivers_either {condition : Prop} [Decidable condition] {first second : Run σ Unit}
    (leaves : Delivers ty first) (other : Delivers ty second) : Delivers ty (if condition then first else second) := by
  split
  · exact leaves
  · exact other

theorem delivers_unless {condition : Prop} [Decidable condition] (fault : Fault) {action : Run σ Unit}
    (leaves : Delivers ty action) : Delivers ty (if condition then fail fault else action) :=
  delivers_either (delivers_fail fault) leaves

theorem delivers_suspend {request : Request} {completion : Completion}
    (owed : Pending.leaves ⟨request, completion⟩ = some ty) :
    Delivers ty (suspend request completion : Run σ Unit) := by
  intro machine isNone
  obtain ⟨notices, suspended⟩ := on_suspend isNone request completion
  rw [Meets, suspended]
  exact owed

theorem delivers_ask {next : String → Request} {completion : Completion}
    (owed : ∀ text, Pending.leaves ⟨next text, completion⟩ = some ty) :
    Delivers ty (do suspend (next (← popText)) completion : Run σ Unit) :=
  delivers_seq (maintains_pop_text preserved_idle) fun text => delivers_suspend (owed text)

end Delivers

section Functions

theorem delivers_rnd : Delivers .single (rnd : Run σ Unit) := by
  have drawn : Delivers .single (draw >>= fun number => push (.single (Double.toSingle number)) : Run σ Unit) :=
    delivers_seq (maintains_draw preserved_idle) fun _ => delivers_push rfl
  refine delivers_seq (maintains_pop_count preserved_idle 1) fun count => delivers_either ?_ drawn
  exact delivers_seq (maintains_pop preserved_idle) fun _ => drawn

theorem delivers_asc : Delivers .long (asc : Run σ Unit) := by
  refine delivers_seq (maintains_pop_text preserved_idle) fun text => ?_
  cases Text.firstCode text with
  | some code => exact delivers_push rfl
  | none => exact delivers_fail _

theorem delivers_chr : Delivers .string (chr : Run σ Unit) := by
  refine delivers_seq (maintains_pop_int preserved_idle) fun code => ?_
  cases Text.ofCode code with
  | some text => exact delivers_push rfl
  | none => exact delivers_fail _

theorem delivers_instr : Delivers .long (instr : Run σ Unit) := by
  refine delivers_seq (maintains_pop_count preserved_idle 3) fun count => ?_
  refine delivers_seq (maintains_pop_text preserved_idle) fun _ => ?_
  refine delivers_seq (maintains_pop_text preserved_idle) fun _ => delivers_either ?_ ?_
  · exact delivers_seq (maintains_pop_int preserved_idle) fun _ => delivers_unless _ (delivers_push rfl)
  · exact delivers_skip (delivers_unless _ (delivers_push rfl))

theorem delivers_mid : Delivers .string (mid : Run σ Unit) := by
  have rest (length : Option Int) : Delivers .string (do
      let start ← popInt
      let text ← popText
      if start < 1 || length.any (· < 0) then fail .badPosition
      else pushText (Text.mid text start length) : Run σ Unit) :=
    delivers_seq (maintains_pop_int preserved_idle) fun _ => delivers_seq (maintains_pop_text preserved_idle) fun _ =>
      delivers_unless _ (delivers_push rfl)
  refine delivers_seq (maintains_pop_count preserved_idle 3) fun count => delivers_either ?_ (rest none)
  exact delivers_seq (maintains_pop_int preserved_idle) fun length => rest (some length)

theorem delivers_string : Delivers .string (string : Run σ Unit) := by
  refine delivers_seq (maintains_pop_value preserved_idle) fun filler => ?_
  refine delivers_seq (maintains_pop_int preserved_idle) fun count => ?_
  cases fillChar? filler with
  | some char => exact delivers_unless _ (delivers_push rfl)
  | none => exact delivers_fail _

theorem delivers_json_parse : Delivers .json (jsonParse : Run σ Unit) := by
  refine delivers_seq (maintains_pop_text preserved_idle) fun text => ?_
  cases Json.parse? text with
  | some document => exact delivers_push rfl
  | none => exact delivers_fail _

theorem delivers_json_get : Delivers .string (jsonGet : Run σ Unit) := by
  refine delivers_seq (maintains_pop_text preserved_idle) fun path => ?_
  refine delivers_seq (maintains_pop_json preserved_idle) fun document => ?_
  split <;> exact delivers_push rfl

theorem delivers_inkey (devices : Devices σ) : Delivers .string (inkey devices) := by
  have asked : Maintains (fun machine => machine.pending = none) (modifyGet fun machine : Machine σ =>
      ((devices.console.key machine.world).1, { machine with world := (devices.console.key machine.world).2 }) :
        Run σ (Option String)) fun _ => True :=
    maintains_modify_get fun machine isNone => ⟨isNone, trivial⟩
  exact delivers_seq asked fun _ => delivers_push rfl

theorem delivers_device_text {ι : Type} (name : String) (device? : Option ι)
    (action : ι → DeviceAction σ (Option String)) :
    Delivers .string (do
      let found ← device (action (← installed name device?))
      setStatus 0
      pushText (found.getD "") : Run σ Unit) :=
  delivers_seq (maintains_installed name device?) fun _ =>
    delivers_seq (maintains_device preserved_idle fun _ _ => trivial) fun _ =>
      delivers_seq (maintains_status preserved_idle 0) fun _ => delivers_push rfl

theorem delivers_look {ι : Type} (name : String) (device? : Option ι) {next : ι → Machine σ → Run σ Unit}
    (rest : ∀ found machine, Delivers ty (next found machine)) :
    Delivers ty (do next (← installed name device?) (← get) : Run σ Unit) :=
  delivers_seq (maintains_installed name device?) fun found => delivers_seq maintains_get fun machine =>
    rest found machine

theorem delivers_bound (view : Bounds → Int) : Delivers .long (bound view : Run σ Unit) := by
  refine delivers_seq (maintains_pop_count preserved_idle 2) fun count =>
    delivers_either (delivers_seq (maintains_pop_int preserved_idle) fun dimension => ?_) (delivers_skip ?_)
  all_goals
    refine delivers_seq (maintains_array_bounds preserved_idle) fun bounds => delivers_either ?_ (delivers_fail _)
    split
    · exact delivers_push rfl
    · exact delivers_fail _

end Functions

theorem function_delivers (devices : Devices σ) (builtin : Builtin)
    (returns : builtin.signature.returns = some declared) (other : builtin ≠ .abs) :
    Delivers declared (Run.builtin devices builtin) := by
  have number := maintains_pop_number (preserved_idle (σ := σ))
  have text := maintains_pop_text (preserved_idle (σ := σ))
  have whole := maintains_pop_int (preserved_idle (σ := σ))
  have value := maintains_pop_value (preserved_idle (σ := σ))
  cases builtin <;> cases returns
  case abs => exact absurd rfl other
  case exp | log | sqr | cint | clng => exact delivers_seq number fun _ => delivers_unless _ (delivers_push rfl)
  case rnd => exact delivers_rnd
  case timer | eventData | err => exact delivers_seq maintains_get fun _ => delivers_push rfl
  case asc => exact delivers_asc
  case chr => exact delivers_chr
  case hex | oct => exact delivers_seq whole fun _ => delivers_push rfl
  case instr => exact delivers_instr
  case left | right => exact delivers_seq whole fun _ => delivers_seq text fun _ => delivers_unless _ (delivers_push rfl)
  case mid => exact delivers_mid
  case len | str => exact delivers_seq value fun _ => delivers_push rfl
  case space => exact delivers_seq whole fun _ => delivers_unless _ (delivers_push rfl)
  case string => exact delivers_string
  case lcase | ucase | ltrim | rtrim | val => exact delivers_seq text fun _ => delivers_push rfl
  case inkey => exact delivers_inkey devices
  case eof =>
    exact delivers_seq (maintains_file_number preserved_idle) fun number => delivers_seq (maintains_input_file number)
      fun _ => delivers_push rfl
  case jsonParse => exact delivers_json_parse
  case jsonGet => exact delivers_json_get
  case jsonStr => exact delivers_seq (maintains_pop_json preserved_idle) fun _ => delivers_push rfl
  case fetch | wsOpen => exact delivers_ask fun _ => rfl
  case hash => exact delivers_seq text fun _ => delivers_ask fun _ => rfl
  case wsRecv => exact delivers_seq (maintains_pop_int32 preserved_idle) fun _ => delivers_device_text _ _ _
  case ioRead => exact delivers_seq text fun _ => delivers_device_text _ _ _
  case stick | strig =>
    exact delivers_seq (maintains_pop_int32 preserved_idle) fun _ => delivers_look _ _ fun _ _ => delivers_push rfl
  case pointerX | pointerY | pointerDown => exact delivers_look _ _ fun _ _ => delivers_push rfl
  case lbound | ubound => exact delivers_bound _
  all_goals exact delivers_seq number fun _ => delivers_push rfl

section Calls

variable {machine after : Machine σ} {builtin : Builtin} {arguments rest : List StackItem}

theorem meets_abs {argument : StackItem} (isNone : machine.pending = none) (stack : machine.stack = argument :: rest) :
    Meets abs machine (fun _ after => after.Gives (machine.valueOf argument).ty.magnitude)
      fun error _ => error.isRecoverable = false := by
  have pushed (value : Value) : Meets (push value) { machine with stack := rest }
      (fun _ after => after.Gives value.ty) fun error _ => error.isRecoverable = false :=
    Machine.gives_value isNone rfl
  refine meets_seq ?_
  rw [Meets, on_pop_item stack]
  cases machine.valueOf argument with
  | integer number =>
    dsimp only
    split
    · exact rfl
    · exact pushed (.integer _)
  | long number =>
    dsimp only
    split
    · exact rfl
    · exact pushed (.long _)
  | single number => exact pushed (.single _)
  | double number => exact pushed (.double _)
  | null => exact pushed (.double _)
  | _ => exact rfl

theorem meets_function (devices : Devices σ) (returns : builtin.signature.returns = some declared)
    (isNone : machine.pending = none) (stack : machine.stack = arguments ++ rest)
    (passes : machine.Passes builtin arguments) :
    Meets (Run.builtin devices builtin) machine
      (fun _ after => after.Gives (machine.resultTy builtin declared arguments))
      fun error after => error.isRecoverable = true →
        after.pending = none ∧ declared.default.ty = machine.resultTy builtin declared arguments := by
  by_cases isAbs : builtin = .abs
  · cases isAbs
    obtain ⟨argument, rfl⟩ := List.length_eq_one_iff.mp passes
    refine meets_weaken (meets_abs isNone stack) (fun _ _ gives => gives) fun error _ fatal recoverable => ?_
    rw [fatal] at recoverable
    cases recoverable
  · rw [Machine.resultTy, if_neg isAbs]
    refine meets_weaken (function_delivers devices builtin returns isAbs machine isNone) (fun _ _ gives => gives) ?_
    exact fun _ _ idle _ => ⟨idle, Builtin.default_declared returns⟩

theorem syscall_gives {setup : Setup σ} (standard : setup.registry = .standard)
    (returns : builtin.signature.returns = some declared)
    (meets : Meets (Run.builtin setup.devices builtin) machine (fun _ after => after.Gives ty)
      fun error after => error.isRecoverable = true → after.pending = none ∧ declared.default.ty = ty)
    (ran : (execute setup (.syscall builtin.name)).on machine = (.ok (), after)) : after.Gives ty := by
  rw [execute, syscall, standard, Registry.standard_lookup] at ran
  dsimp only at ran
  rw [on_catch] at ran
  unfold Meets at meets
  generalize (Run.builtin setup.devices builtin).on machine = outcome at meets ran
  obtain ⟨result, failed⟩ := outcome
  cases result with
  | ok _ =>
    cases ran
    exact meets
  | error error =>
    cases recoverable : error.isRecoverable with
    | false =>
      simp only [recoverable] at ran
      cases ran
    | true =>
      obtain ⟨isNone, isTy⟩ := meets recoverable
      simp only [recoverable, if_true, returns] at ran
      rw [setStatus, on_seq (on_modify _ _), on_seq (on_get _), isNone] at ran
      cases ran
      rw [← isTy]
      exact Machine.gives_value rfl rfl

theorem meets_owed {pending : Pending} (owed : pending.leaves = some ty) (answerable : pending.Answerable)
    {devices : Devices σ} {world later : σ} {reply : Reply}
    (answered : devices.perform pending.request world = (.ok reply, later)) (isNone : machine.pending = none) :
    Meets (complete pending.completion reply) machine (fun _ last => last.Receives ty machine.stack)
      fun _ _ => False := by
  obtain ⟨request, completion⟩ := pending
  cases completion with
  | pushString =>
    cases owed
    cases reply with
    | text text => exact ⟨isNone, .string text, rfl, rfl⟩
    | done => exact ⟨isNone, .string "", rfl, rfl⟩
    | handle handle =>
      -- Only a socket is answered with a number, and its request asks for one.
      obtain ⟨url, isSocket⟩ := perform_handle answered
      exact absurd isSocket (answerable rfl url)
  | pushLong =>
    cases owed
    cases reply <;> exact ⟨isNone, .long _, rfl, rfl⟩
  | _ => cases owed

theorem meets_unanswered {pending : Pending} (owed : pending.leaves = some ty) (isNone : machine.pending = none) :
    Meets (completeFailed pending.completion) machine (fun _ last => last.Receives ty machine.stack)
      fun _ _ => False := by
  obtain ⟨request, completion⟩ := pending
  cases completion with
  | pushString =>
    cases owed
    exact ⟨isNone, .string "", rfl, rfl⟩
  | pushLong =>
    cases owed
    exact ⟨isNone, .long _, rfl, rfl⟩
  | _ => cases owed

theorem resume_gives {pending : Pending} (waits : machine.pending = some pending) (owed : pending.leaves = some ty)
    (answerable : pending.Answerable) {devices : Devices σ} {world later : σ} {reply : Except DeviceError Reply}
    (answered : devices.perform pending.request world = (reply, later)) :
    ∃ last, (resume reply).on machine = (.ok (), last) ∧ last.Receives ty machine.stack := by
  have goes (before : Machine σ) (receives : before.Receives ty machine.stack) :
      Meets (modify fun machine => machine.setPhase .running : Run σ Unit) before
        (fun _ last => last.Receives ty machine.stack) fun _ _ => False := by
    obtain ⟨notices, runs⟩ := before.set_phase_only .running
    rw [Meets, on_modify, runs]
    exact receives
  have resumed : Meets (resume reply) machine (fun _ last => last.Receives ty machine.stack) fun _ _ => False := by
    rw [resume]
    refine meets_seq ?_
    rw [Meets, on_get]
    dsimp only
    rw [waits]
    refine meets_seq (meets_seq (meets_failing ?_))
    cases reply with
    | ok reply =>
      refine meets_weaken (meets_seq (meets_owed owed answerable answered rfl)) ?_ fun _ _ nothing => nothing
      exact fun _ last receives => goes last receives
    | error error =>
      refine meets_weaken (meets_seq (meets_unanswered owed rfl)) ?_ fun _ _ nothing => nothing
      exact fun _ last receives => goes last receives
  unfold Meets at resumed
  generalize (resume reply).on machine = outcome at resumed ⊢
  obtain ⟨result, last⟩ := outcome
  cases result with
  | ok _ => exact ⟨last, rfl, resumed⟩
  | error _ => exact resumed.elim

end Calls

end Run

namespace Check

variable {α β : Type}

def Finds (holds : α → Prop) (check : Check α) : Prop := ∀ state, holds (check.run state).1

theorem finds_seq {holds : β → Prop} {first : Check α} {next : α → Check β}
    (finds : ∀ value, Finds holds (next value)) : Finds holds (first >>= next) :=
  fun _ => finds _ _

def CallTyped (registry : Registry) (expr : Expr) : Prop :=
  ∀ name arguments info, expr = .apply name arguments .builtin info →
    ∃ builtin, registry.function? name = some builtin ∧ info.ty = some (builtin.signature.returns.getD .null)

theorem call_typed (registry : Registry) (symbols : SymbolTable) (name : String) (count : Nat) (locus : Locus)
    (arguments : List Expr) : Finds (CallTyped registry) (do
      let (callee, ty) ← applyResult (resolution registry symbols name) symbols name count locus
      return .apply name arguments callee ⟨locus, some ty⟩) := by
  cases resolved : resolution registry symbols name with
  | builtin builtin =>
    rintro state _ _ _ ⟨rfl, rfl, rfl⟩
    exact ⟨builtin, resolution_builtin resolved, rfl⟩
  | _ =>
    rintro state _ _ _ same
    cases same

theorem expr_call_typed (context : CheckContext) (source : Expr) :
    Finds (CallTyped context.registry) (expr context source) := by
  cases source with
  | «variable» name info =>
    rw [expr]
    refine finds_seq fun table => ?_
    split
    · exact finds_seq fun _ => call_typed _ _ _ _ _ _
    · refine finds_seq fun ty => ?_
      rintro state _ _ _ same
      cases same
  | apply name arguments callee info =>
    rw [expr]
    exact finds_seq fun table => finds_seq fun demand => finds_seq fun checked => call_typed _ _ _ _ _ _
  | _ =>
    rintro state _ _ _ same
    cases same

end Check

/-- The value of a function has the type that the checker gives its calls, at once, after a recoverable error
and after the reply of a device. The value of `ABS` has the type of its argument instead, or is a `DOUBLE`. -/
theorem function_result_type {σ : Type} (setup : Setup σ) (standard : setup.registry = .standard)
    (builtin : Builtin) (declared : Ty) (returns : builtin.signature.returns = some declared)
    (machine after : Machine σ) (arguments rest : List StackItem) (waitsForNothing : machine.pending = none)
    (stack : machine.stack = arguments ++ rest) (passes : machine.Passes builtin arguments)
    (ran : (Run.execute setup (.syscall builtin.name)).on machine = (.ok (), after)) :
    (∀ context source state name given info later, context.registry = setup.registry →
      setup.registry.function? name = some builtin →
      (Check.expr context source).run state = (.apply name given .builtin info, later) → info.ty = some declared) ∧
      (after.pending = none → after.Receives (machine.resultTy builtin declared arguments) rest) ∧
      ∀ pending, after.pending = some pending → after.stack = rest ∧
        ∀ world reply later, setup.devices.perform pending.request world = (reply, later) →
          ∃ last, (Run.resume reply).on after = (.ok (), last) ∧
            last.Receives (machine.resultTy builtin declared arguments) rest := by
  have function : builtin.results = 1 := by simp [Builtin.results, Builtin.isFunction, returns]
  have notOpen : builtin = .openFile → Run.FileNumberFits machine arguments := by
    rintro rfl
    cases returns
  -- The convention of calls says where the value is, and the functions themselves which type it has.
  have settled : after.Settled 1 rest := by
    have settles := Run.settles_builtin setup.devices builtin waitsForNothing stack passes notOpen
    have meets := Run.settles_syscall standard settles
    rw [Run.Meets, ran, function] at meets
    exact meets
  have gives := Run.syscall_gives standard returns
    (Run.meets_function setup.devices returns waitsForNothing stack passes) ran
  refine ⟨fun context source state name given info later registered found checked => ?_, fun isNone => ?_,
    fun pending waits => ?_⟩
  · obtain ⟨known, sameName, typed⟩ :=
      Check.expr_call_typed context source state name given info (congrArg Prod.fst checked)
    rw [registered, found] at sameName
    cases sameName
    rwa [returns] at typed
  · rw [Machine.Settled, isNone] at settled
    rw [Machine.Gives, isNone] at gives
    obtain ⟨results, above, one⟩ := settled
    obtain ⟨value, below, top, isTy⟩ := gives
    obtain ⟨item, rfl⟩ := List.length_eq_one_iff.mp one
    cases above.symm.trans top
    exact ⟨isNone, value, above, isTy⟩
  · rw [Machine.Settled, waits] at settled
    rw [Machine.Gives, waits] at gives
    obtain ⟨same, -, answerable⟩ := settled
    refine ⟨same, fun world reply later answered => ?_⟩
    rw [← same]
    exact Run.resume_gives waits gives answerable answered

theorem fetch_gives_text : ∃ after, (Run.execute (.ofDevices Bench.bare .standard) (.syscall "FETCH$")).on sampleFetch =
      (.ok (), after) ∧
    ∃ last, (Run.resume (.error (.unsupported "network"))).on after = (.ok (), last) ∧
      last.Receives .string [.value (.integer 7)] := by
  have ran : (Run.execute (.ofDevices Bench.bare .standard) (.syscall Builtin.fetch.name)).on sampleFetch =
      (.ok (), { sampleFetch with
        pending := some ⟨.fetch "page", .pushString⟩, phase := .suspended, notices := [.suspended]
        stack := [.value (.integer 7)] }) := by
    have found : (Setup.ofDevices Bench.bare .standard).registry.lookup? Builtin.fetch.name = some .fetch :=
      Registry.standard_lookup .fetch
    rw [Run.execute, Run.syscall, found]
    rfl
  obtain ⟨-, -, waits⟩ := function_result_type (.ofDevices Bench.bare .standard) rfl .fetch .string rfl sampleFetch _
    [.value (.string "page")] [.value (.integer 7)] rfl rfl rfl ran
  exact ⟨_, ran, (waits _ rfl).2 Bench.empty _ _ rfl⟩

def sampleAbs : Machine Bench :=
  { Machine.create Bench.empty with phase := .running, stack := [.value (.integer 5)] }

/-- A call of `ABS` with an `INTEGER` counts as a `DOUBLE`, but its value is an `INTEGER`. -/
theorem abs_keeps_integer :
    ((Check.expr ⟨.standard, "", .main, [], 0⟩
      (.apply "ABS" [.variable "X%" ⟨⟨1, 5⟩, none⟩] .unresolved ⟨⟨1, 1⟩, none⟩)).run ⟨.empty, []⟩).1.ty = .double ∧
      sampleAbs.Passes .abs [.value (.integer 5)] ∧
      ∃ after, (Run.execute (.ofDevices Bench.bare .standard) (.syscall Builtin.abs.name)).on sampleAbs =
          (.ok (), after) ∧
        after.Receives .integer [] ∧ ¬after.Receives .double [] := by
  have ran : (Run.execute (.ofDevices Bench.bare .standard) (.syscall Builtin.abs.name)).on sampleAbs =
      (.ok (), { sampleAbs with stack := [.value (.integer (Int16.ofInt 5))] }) := by
    have found : (Setup.ofDevices Bench.bare .standard).registry.lookup? Builtin.abs.name = some .abs :=
      Registry.standard_lookup .abs
    rw [Run.execute, Run.syscall, found]
    rfl
  refine ⟨by decide +kernel, rfl, _, ran, ⟨rfl, _, rfl, rfl⟩, ?_⟩
  rintro ⟨-, value, same, isDouble⟩
  cases same
  cases isDouble

end BasicLang
