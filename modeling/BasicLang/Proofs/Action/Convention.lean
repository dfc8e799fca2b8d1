import BasicLang.Device.Bench
import BasicLang.Machine.Execute
import BasicLang.Proofs.Action.StackUse
import BasicLang.Proofs.Machine.Stepping

set_option autoImplicit false

namespace BasicLang

namespace Builtin

inductive Passing where
  | fixed
  | counted
  | variadic
deriving Repr, DecidableEq

def passing (builtin : Builtin) : Passing :=
  if builtin ∈ [.printUsing, .write, .input, .fileInput] then .variadic
  else if builtin.signature.countsArguments then .counted
  else .fixed

def arity (builtin : Builtin) : Nat := builtin.signature.arguments.length

def results (builtin : Builtin) : Nat := if builtin.isFunction then 1 else 0

end Builtin

/-- The items are the arguments of a builtin, the last one first. -/
def Machine.Passes {σ : Type} (machine : Machine σ) (builtin : Builtin) (items : List StackItem) : Prop :=
  match builtin.passing with
  | .fixed => items.length = builtin.arity
  | .counted => ∃ count given, items = count :: given ∧ machine.wholeOf? count = some (given.length : Int) ∧
      builtin.signature.required ≤ given.length ∧ given.length ≤ builtin.arity
  | .variadic => ∃ count values fixed, items = count :: (values ++ fixed) ∧
      machine.wholeOf? count = some (values.length : Int) ∧ fixed.length = builtin.arity

namespace Run

variable {σ α : Type} {results : Nat}

section Fixed

theorem honours_text (text : String) : Honours 0 1 (pushText text : Run σ Unit) := honours_push _

theorem honours_long (number : Int) : Honours 0 1 (pushLong number : Run σ Unit) := honours_push _

theorem honours_integer (number : Int) : Honours 0 1 (pushInteger number : Run σ Unit) := honours_push _

theorem honours_unless {condition : Prop} [Decidable condition] (fault : Fault) {action : Run σ Unit}
    (honours : Honours 0 results action) : Honours 0 results (if condition then fail fault else action) := by
  split
  · exact honours_fail fault
  · exact honours

theorem honours_double (function : Float → Float) : Honours 1 1 (double function : Run σ Unit) :=
  honours_take takes_number fun _ => honours_push _

theorem honours_map_text (function : String → String) : Honours 1 1 (mapText function : Run σ Unit) :=
  honours_take takes_text fun _ => honours_text _

theorem honours_take_text (take : String → Int → String) : Honours 2 1 (takeText take : Run σ Unit) :=
  honours_take takes_int fun _ => honours_take takes_text fun _ => honours_unless _ (honours_text _)

theorem honours_radix (base : Nat) : Honours 1 1 (radix base : Run σ Unit) :=
  honours_take takes_int fun _ => honours_text _

theorem honours_abs : Honours 1 1 (abs : Run σ Unit) := by
  refine honours_take takes_value fun value => ?_
  cases value with
  | integer number => exact honours_unless _ (honours_push _)
  | long number => exact honours_unless _ (honours_push _)
  | single number => exact honours_push _
  | _ =>
    dsimp only
    split
    · exact honours_push _
    · exact honours_fail _

theorem honours_asc : Honours 1 1 (asc : Run σ Unit) := by
  refine honours_take takes_text fun text => ?_
  cases Text.firstCode text with
  | some code => exact honours_long _
  | none => exact honours_fail _

theorem honours_chr : Honours 1 1 (chr : Run σ Unit) := by
  refine honours_take takes_int fun code => ?_
  cases Text.ofCode code with
  | some text => exact honours_text _
  | none => exact honours_fail _

theorem honours_string : Honours 2 1 (string : Run σ Unit) := by
  refine honours_take takes_value fun filler => honours_take takes_int fun count => ?_
  cases fillChar? filler with
  | some char => exact honours_unless _ (honours_text _)
  | none => exact honours_fail _

theorem takes_json : Takes 1 (popJson : Run σ Json) := by
  refine (takes_seq takes_value fun value => ?_ : Takes (1 + 0) _)
  cases value with
  | json document => exact takes_nothing document
  | null => exact takes_nothing Json.null
  | _ => exact takes_fail rfl

theorem honours_json_parse : Honours 1 1 (jsonParse : Run σ Unit) := by
  refine honours_take takes_text fun text => ?_
  cases Json.parse? text with
  | some document => exact honours_push _
  | none => exact honours_fail _

theorem honours_json_get : Honours 2 1 (jsonGet : Run σ Unit) := by
  refine honours_take takes_text fun path => honours_take takes_json fun document => ?_
  split <;> exact honours_text _

theorem takes_int32 : Takes 1 (popInt32 : Run σ Int) := takes_map takes_int _

theorem honours_inkey (devices : Devices σ) : Honours 0 1 (inkey devices) := by
  refine honours_spare (spares_modify_get fun machine => ?_) fun _ => honours_text _
  exact ⟨rfl, rfl, rfl, rfl, rfl, rfl⟩

theorem honours_on_world (change : σ → σ) : Honours 0 0 (onWorld change) :=
  honours_end (spares_modify fun _ => ⟨rfl, rfl, rfl, rfl, rfl, rfl⟩)

theorem honours_device {ι : Type} (name : String) (device? : Option ι) (action : ι → DeviceAction σ Unit) :
    Honours 0 0 (do
      let found ← installed name device?
      device (action found)
      setStatus 0) :=
  honours_spare (spares_installed name device?) fun found => honours_spare (spares_device (action found)) fun _ =>
    honours_end (spares_status 0)

theorem honours_device_text {ι : Type} (name : String) (device? : Option ι)
    (action : ι → DeviceAction σ (Option String)) :
    Honours 0 1 (do
      let found ← installed name device?
      let text ← device (action found)
      setStatus 0
      pushText (text.getD "")) :=
  honours_spare (spares_installed name device?) fun found => honours_spare (spares_device (action found)) fun _ =>
    honours_spare (spares_status 0) fun _ => honours_text _

theorem honours_look {ι : Type} (name : String) (device? : Option ι) (view : ι → σ → Value) :
    Honours 0 1 (do
      let found ← installed name device?
      push (view found (← get).world)) :=
  honours_spare (spares_installed name device?) fun _ => honours_spare spares_get fun _ => honours_push _

theorem honours_sound (devices : Devices σ) : Honours 2 0 (sound devices) :=
  honours_take takes_number fun _ => honours_take takes_number fun _ =>
    honours_unless _ (honours_device "audio" devices.audio _)

theorem spares_input_file (number : Int) : Spares (inputFile number : Run σ OpenFile) := by
  refine spares_seq spares_get fun machine => ?_
  cases machine.files.get? number with
  | none => exact spares_fail _
  | some file =>
    dsimp only
    split
    · exact spares_nothing file
    · exact spares_fail _

theorem spares_set_file (number : Int) (file : OpenFile) : Spares (setFile number file : Run σ Unit) :=
  spares_modify fun _ => ⟨rfl, rfl, rfl, rfl, rfl, rfl⟩

theorem spares_read_fields (number : Int) (targets : List Cell) :
    Spares (readFields number targets : Run σ (List Value)) := by
  induction targets with
  | nil => exact spares_nothing []
  | cons target rest ih =>
    refine spares_seq (spares_input_file number) fun file => ?_
    generalize file.readField = found
    obtain ⟨field, file⟩ := found
    refine spares_seq (spares_set_file number file) fun _ => ?_
    cases field with
    | none => exact spares_fail _
    | some text =>
      exact spares_seq spares_get fun _ => spares_seq ih fun _ => spares_nothing _

theorem commits_assign_all (targets : List (Cell × Value)) : Commits (assignAll targets : Run σ Unit) := by
  induction targets with
  | nil => exact commits_nothing ()
  | cons target rest ih => exact commits_seq (commits_assign target.1 target.2) fun _ => ih

theorem honours_file_number {next : Int → Run σ Unit} (rest : ∀ number, Honours 0 results (next number)) :
    Honours 1 results (popFileNumber >>= next) := by
  rw [popFileNumber, bind_assoc]
  refine honours_take takes_int fun number => ?_
  -- A bad number is a recoverable error, but as the last argument to be taken it leaves none behind.
  split
  · exact honours_spare (spares_fail _) rest
  · exact rest number

theorem honours_file_line_input : Honours 2 0 (fileLineInput : Run σ Unit) := by
  refine honours_take takes_reference fun target => honours_file_number fun number => ?_
  refine honours_spare (spares_input_file number) fun file => ?_
  generalize file.readLine = found
  obtain ⟨line, file⟩ := found
  refine honours_spare (spares_set_file number file) fun _ => ?_
  cases line with
  | none => exact honours_fail _
  | some text => exact honours_commit (commits_assign target _)

theorem honours_eof : Honours 1 1 (eof : Run σ Unit) :=
  honours_file_number fun number => honours_spare (spares_input_file number) fun _ => honours_push _

theorem honours_swap : Honours 2 0 (swap : Run σ Unit) := by
  refine honours_take takes_reference fun right => honours_take takes_reference fun left => ?_
  split
  · exact honours_commit (commits_seq (commits_read left) fun _ => commits_seq (commits_read right) fun _ =>
      commits_seq (commits_assign left _) fun _ => commits_assign right _)
  · exact honours_end (spares_nothing ())

end Fixed

theorem honours_fixed (devices : Devices σ) (builtin : Builtin) (isFixed : builtin.passing = .fixed)
    (notOpen : builtin ≠ .openFile) : Honours builtin.arity builtin.results (Run.builtin devices builtin) := by
  cases builtin with
  | print => exact honours_take takes_value fun _ => honours_end (spares_print devices _)
  | printZone => exact honours_spare spares_get fun _ => honours_end (spares_print devices _)
  | printNewline => exact honours_end (spares_print devices _)
  | selectOutput => exact honours_take takes_int fun _ => honours_end (spares_select _)
  | lineInput =>
    exact honours_take takes_reference fun _ => honours_take takes_text fun _ =>
      honours_spare (spares_print devices _) fun _ => honours_suspend _ _ (nomatch ·)
  | abs => exact honours_abs
  | atn | cos | sin | tan | int | fix | cdbl => exact honours_double _
  | exp => exact honours_take takes_number fun _ => honours_unless _ (honours_push _)
  | log => exact honours_take takes_number fun _ => honours_unless _ (honours_push _)
  | sqr => exact honours_take takes_number fun _ => honours_unless _ (honours_push _)
  | sgn => exact honours_take takes_number fun _ => honours_integer _
  | cint => exact honours_take takes_number fun _ => honours_unless _ (honours_integer _)
  | clng => exact honours_take takes_number fun _ => honours_unless _ (honours_long _)
  | csng => exact honours_take takes_number fun _ => honours_push _
  | timer => exact honours_spare spares_get fun _ => honours_push _
  | asc => exact honours_asc
  | chr => exact honours_chr
  | hex | oct => exact honours_radix _
  | lcase | ucase | ltrim | rtrim => exact honours_map_text _
  | left | right => exact honours_take_text _
  | len => exact honours_take takes_value fun _ => honours_long _
  | space => exact honours_take takes_int fun _ => honours_unless _ (honours_text _)
  | str => exact honours_take takes_value fun _ => honours_text _
  | string => exact honours_string
  | val => exact honours_take takes_text fun _ => honours_push _
  | jsonParse => exact honours_json_parse
  | jsonGet => exact honours_json_get
  | jsonStr => exact honours_take takes_json fun _ => honours_text _
  | inkey => exact honours_inkey devices
  | cls | beep => exact honours_on_world _
  | eof => exact honours_eof
  | openFile => exact absurd rfl notOpen
  | fileLineInput => exact honours_file_line_input
  | fetch => exact honours_take takes_text fun _ => honours_suspend _ _ fun _ _ => (nomatch ·)
  | wsOpen => exact honours_take takes_text fun _ => honours_suspend _ _ (nomatch ·)
  | wsSend =>
    exact honours_take takes_text fun _ => honours_take takes_int32 fun _ =>
      honours_device "network" devices.network _
  | wsRecv => exact honours_take takes_int32 fun _ => honours_device_text "network" devices.network _
  | play | playSound => exact honours_take takes_text fun _ => honours_device "audio" devices.audio _
  | sound => exact honours_sound devices
  | loadSound =>
    exact honours_take takes_text fun _ => honours_take takes_text fun _ => honours_suspend _ _ (nomatch ·)
  | ioWrite =>
    exact honours_take takes_text fun _ => honours_take takes_text fun _ =>
      honours_device "I/O bus" devices.bus _
  | ioRead => exact honours_take takes_text fun _ => honours_device_text "I/O bus" devices.bus _
  | eventData => exact honours_spare spares_get fun _ => honours_text _
  | stick =>
    exact honours_take takes_int32 fun axis =>
      honours_look "gamepad" devices.gamepad fun gamepad world => .integer (Int16.ofInt (gamepad.stick axis world))
  | strig =>
    exact honours_take takes_int32 fun button =>
      honours_look "gamepad" devices.gamepad fun gamepad world => .ofBool (gamepad.trigger button world)
  | pointerX =>
    exact honours_look "pointer" devices.pointer fun pointer world =>
      .integer (Int16.ofInt (pointer.position world).1)
  | pointerY =>
    exact honours_look "pointer" devices.pointer fun pointer world =>
      .integer (Int16.ofInt (pointer.position world).2)
  | pointerDown =>
    exact honours_look "pointer" devices.pointer fun pointer world => .ofBool (pointer.isDown world)
  | swap => exact honours_swap
  | err => exact honours_spare spares_get fun _ => honours_integer _
  | hash =>
    exact honours_take takes_text fun _ => honours_take takes_text fun _ =>
      honours_suspend _ _ fun _ _ => (nomatch ·)
  | _ => cases isFixed

section Counted

theorem on_argument_count {machine : Machine σ} {item : StackItem} {items : List StackItem} {count most : Nat}
    (stack : machine.stack = item :: items) (isCount : machine.wholeOf? item = some (count : Int))
    (few : count ≤ most) :
    (popArgumentCount most : Run σ Nat).on machine = (.ok count, { machine with stack := items }) := by
  have fits : 0 ≤ (count : Int) ∧ (count : Int) ≤ most := ⟨Int.natCast_nonneg count, Int.ofNat_le.mpr few⟩
  rw [popArgumentCount, on_bind, on_pop_whole stack, isCount]
  dsimp only
  rw [if_pos fits]
  rfl

theorem settles_counted {machine : Machine σ} {item : StackItem} {given rest : List StackItem} {most : Nat}
    {next : Nat → Run σ Unit} (isNone : machine.pending = none) (stack : machine.stack = item :: given ++ rest)
    (isCount : machine.wholeOf? item = some (given.length : Int)) (few : given.length ≤ most)
    (honours : Honours given.length results (next given.length)) :
    Settles results rest (popArgumentCount most >>= next) machine := by
  refine meets_seq ?_
  -- The number on top is taken first, and a failure afterwards still leaves everything but the stack.
  rw [Meets, on_argument_count stack isCount few]
  refine meets_weaken (honours _ given rest isNone rfl rfl) (fun _ _ settled => settled) ?_
  intro error after stays recoverable
  obtain ⟨same, none, steady⟩ := stays recoverable
  exact ⟨same, none, steady.store, steady.scopes, steady.frames, steady.next⟩

theorem spares_draw : Spares (draw : Run σ Float) := by
  refine spares_modify_get fun machine => ?_
  -- The generator computes with large numbers, which nothing here depends on.
  generalize machine.generator.next = drawn
  obtain ⟨number, generator⟩ := drawn
  exact ⟨rfl, rfl, rfl, rfl, rfl, rfl⟩

theorem honours_pair {next : Option Int × Option Int → Run σ Unit}
    (honours : ∀ pair, Honours 0 results (next pair)) :
    ∃ further, (popPair >>= next) = popArgumentCount 2 >>= further ∧
      ∀ count, count ≤ 2 → Honours count results (further count) := by
  refine ⟨_, bind_assoc _ _ _, fun count few => ?_⟩
  match count, few with
  | 0, _ =>
    exact honours_takes (takes_seq (takes_nothing none) fun _ => takes_seq (takes_nothing none) fun _ =>
      takes_nothing _ : Takes (0 + (0 + 0)) _) honours
  | 1, _ =>
    exact honours_takes (takes_seq (takes_nothing none) fun _ => takes_seq takes_int32 fun first =>
      takes_seq (takes_nothing (some first)) fun _ => takes_nothing _ : Takes (0 + (1 + (0 + 0))) _) honours
  | 2, _ =>
    exact honours_takes (takes_seq takes_int32 fun second => takes_seq (takes_nothing (some second)) fun _ =>
      takes_seq takes_int32 fun first => takes_seq (takes_nothing (some first)) fun _ =>
        takes_nothing _ : Takes (1 + (0 + (1 + (0 + 0)))) _) honours

theorem honours_seed (number : Float) : Honours 0 0 (seed number : Run σ Unit) := by
  refine honours_end (spares_modify fun machine => ?_)
  generalize machine.generator.randomize number = generator
  exact ⟨rfl, rfl, rfl, rfl, rfl, rfl⟩

theorem honours_sleep_for (seconds : Float) : Honours 0 0 (sleepFor seconds : Run σ Unit) := by
  unfold sleepFor
  split
  · split
    · exact honours_suspend _ _ (nomatch ·)
    · exact honours_fail _
  · exact honours_end (spares_nothing ())

theorem takes_array_bounds : Takes 1 (popArrayBounds : Run σ (List Bounds)) := by
  refine (takes_seq takes_item fun item => ?_ : Takes (1 + 0) _)
  cases item with
  | value value =>
    cases value with
    | array element bounds slots => exact takes_nothing bounds
    | _ => exact takes_fail rfl
  | reference cell =>
    refine (takes_seq takes_get fun machine => ?_ : Takes (0 + 0) _)
    cases machine.store.content cell with
    | array element grid => exact takes_nothing grid.bounds
    | _ => exact takes_fail rfl

theorem honours_bound (view : Bounds → Int) (dimension : Int) :
    Honours 1 1 (do
      let bounds ← popArrayBounds
      if 1 ≤ dimension then
        match bounds[dimension.toNat - 1]? with
        | some found => pushLong (view found)
        | none => fail (.noDimension dimension)
      else fail (.noDimension dimension) : Run σ Unit) := by
  refine honours_take takes_array_bounds fun bounds => ?_
  split
  · cases bounds[dimension.toNat - 1]? with
    | some found => exact honours_long _
    | none => exact honours_fail _
  · exact honours_fail _

theorem honours_write_back (flushes : List Flush) : Honours 0 0 (writeBack flushes : Run σ Unit) := by
  unfold writeBack
  split
  · exact honours_end (spares_nothing ())
  · exact honours_suspend _ _ (nomatch ·)

theorem honours_close_one : Honours 1 0 (do
    let number ← popFileNumber
    match (← get).files.get? number with
    | none => fail (.badFileNumber number)
    | some file =>
      modify fun machine => { machine with files := machine.files.erase number }
      writeBack file.flush?.toList : Run σ Unit) := by
  refine honours_file_number fun number => honours_spare spares_get fun machine => ?_
  cases machine.files.get? number with
  | none => exact honours_fail _
  | some file =>
    exact honours_spare (spares_modify fun _ => ⟨rfl, rfl, rfl, rfl, rfl, rfl⟩) fun _ => honours_write_back _

end Counted

theorem honours_by_count (devices : Devices σ) (builtin : Builtin) (isCounted : builtin.passing = .counted) :
    ∃ next, Run.builtin devices builtin = popArgumentCount builtin.arity >>= next ∧
      ∀ count, builtin.signature.required ≤ count → count ≤ builtin.arity →
        Honours count builtin.results (next count) := by
  cases builtin with
  | rnd =>
    refine ⟨_, rfl, fun count _ few => ?_⟩
    match count, few with
    | 0, _ => exact honours_spare spares_draw fun _ => honours_push _
    | 1, _ => exact honours_take takes_item fun _ => honours_spare spares_draw fun _ => honours_push _
  | randomize =>
    refine ⟨_, rfl, fun count _ few => ?_⟩
    match count, few with
    | 0, _ => exact honours_spare spares_get fun _ => honours_skip (honours_seed _)
    | 1, _ => exact honours_take takes_number fun _ => honours_seed _
  | sleep =>
    refine ⟨_, rfl, fun count _ few => ?_⟩
    match count, few with
    | 0, _ => exact honours_skip (honours_sleep_for 0)
    | 1, _ => exact honours_take takes_number fun seconds => honours_sleep_for seconds
  | instr =>
    refine ⟨_, rfl, fun count enough few => ?_⟩
    match count, enough, few with
    | 2, _, _ =>
      exact honours_take takes_text fun _ => honours_take takes_text fun _ =>
        honours_skip (honours_unless _ (honours_long _))
    | 3, _, _ =>
      exact honours_take takes_text fun _ => honours_take takes_text fun _ => honours_take takes_int fun _ =>
        honours_unless _ (honours_long _)
  | mid =>
    refine ⟨_, rfl, fun count enough few => ?_⟩
    match count, enough, few with
    | 2, _, _ =>
      exact honours_skip (honours_take takes_int fun _ => honours_take takes_text fun _ =>
        honours_unless _ (honours_text _))
    | 3, _, _ =>
      exact honours_take takes_int fun _ => honours_skip (honours_take takes_int fun _ =>
        honours_take takes_text fun _ => honours_unless _ (honours_text _))
  | closeFile =>
    refine ⟨_, rfl, fun count _ few => ?_⟩
    match count, few with
    | 0, _ =>
      exact honours_spare spares_get fun _ =>
        honours_spare (spares_modify fun _ => ⟨rfl, rfl, rfl, rfl, rfl, rfl⟩) fun _ => honours_write_back _
    | 1, _ => exact honours_close_one
  | lbound | ubound =>
    refine ⟨_, rfl, fun count enough few => ?_⟩
    match count, enough, few with
    | 1, _, _ => exact honours_skip (honours_bound _ 1)
    | 2, _, _ => exact honours_take takes_int fun dimension => honours_bound _ dimension
  | locate | color =>
    obtain ⟨next, same, honours⟩ := honours_pair fun pair : Option Int × Option Int =>
      honours_on_world _
    exact ⟨next, same, fun count _ few => honours count few⟩
  | _ => cases isCounted

section Variadic

theorem meets_values {machine : Machine σ} {item : StackItem} {values rest : List StackItem}
    (stack : machine.stack = item :: (values ++ rest))
    (isCount : machine.wholeOf? item = some (values.length : Int)) :
    Meets (popValues : Run σ (List Value)) machine (fun _ after => after = { machine with stack := rest })
      fun error _ => error.isRecoverable = false := by
  refine meets_seq ?_
  rw [Meets, on_pop_whole stack, isCount]
  have fits : ¬((values.length : Int) < 0) := by omega
  simp only [if_neg fits]
  exact takes_many takes_value _ [] { machine with stack := values ++ rest } values rest rfl (by simp)

theorem meets_targets {machine : Machine σ} {item : StackItem} {values rest : List StackItem}
    (stack : machine.stack = item :: (values ++ rest))
    (isCount : machine.wholeOf? item = some (values.length : Int)) :
    Meets (popTargets : Run σ (List Cell)) machine (fun _ after => after = { machine with stack := rest })
      fun error _ => error.isRecoverable = false := by
  refine meets_seq ?_
  rw [Meets, on_pop_whole stack, isCount]
  exact takes_many takes_reference _ [] { machine with stack := values ++ rest } values rest rfl (by simp)

theorem settles_after {machine : Machine σ} {fixed rest : List StackItem} {first : Run σ α}
    {next : α → Run σ Unit} {count : Nat} (isNone : machine.pending = none) (length : fixed.length = count)
    (meets : Meets first machine (fun _ after => after = { machine with stack := fixed ++ rest })
      fun error _ => error.isRecoverable = false)
    (honours : ∀ result, Honours count results (next result)) :
    Settles results rest (first >>= next) machine := by
  refine meets_seq (meets_weaken meets ?_ ?_)
  · rintro result _ rfl
    refine meets_weaken (honours result _ fixed rest isNone rfl length) (fun _ _ settled => settled) ?_
    intro error after stays recoverable
    obtain ⟨same, none, steady⟩ := stays recoverable
    exact ⟨same, none, steady.store, steady.scopes, steady.frames, steady.next⟩
  · -- Taking values has no recoverable error, so that none is left with part of them on the stack.
    intro error after fatal recoverable
    rw [fatal] at recoverable
    cases recoverable

theorem settles_variadic (devices : Devices σ) (builtin : Builtin) (isVariadic : builtin.passing = .variadic)
    {machine : Machine σ} {item : StackItem} {values fixed rest : List StackItem}
    (isNone : machine.pending = none) (stack : machine.stack = item :: (values ++ (fixed ++ rest)))
    (isCount : machine.wholeOf? item = some (values.length : Int)) (length : fixed.length = builtin.arity) :
    Settles builtin.results rest (Run.builtin devices builtin) machine := by
  cases builtin with
  | printUsing =>
    refine settles_after isNone length (meets_values stack isCount) fun values => ?_
    refine honours_take takes_text fun template => ?_
    cases formatUsing template (values.map templateArgument) with
    | ok text => exact honours_end (spares_print devices text)
    | error fault => cases fault <;> exact honours_fail _
  | write =>
    exact settles_after isNone length (meets_values stack isCount) fun _ => honours_end (spares_print devices _)
  | input =>
    exact settles_after isNone length (meets_targets stack isCount) fun _ => honours_take takes_text fun _ =>
      honours_spare (spares_print devices _) fun _ => honours_suspend _ _ (nomatch ·)
  | fileInput =>
    exact settles_after isNone length (meets_targets stack isCount) fun targets =>
      honours_file_number fun number => honours_spare (spares_input_file number) fun _ =>
        honours_spare (spares_read_fields number targets) fun _ => honours_commit (commits_assign_all _)
  | _ => cases isVariadic

end Variadic

def FileNumberFits (machine : Machine σ) (items : List StackItem) : Prop :=
  ∀ item number, items.head? = some item → machine.wholeOf? item = some number → 1 ≤ number ∧ number ≤ 255

theorem meets_file_number {machine : Machine σ} {item : StackItem} {items rest : List StackItem}
    (stack : machine.stack = item :: (items ++ rest)) (fits : FileNumberFits machine (item :: items)) :
    Meets (popFileNumber : Run σ Int) machine (fun _ after => after = { machine with stack := items ++ rest })
      fun error _ => error.isRecoverable = false := by
  refine meets_seq ?_
  rw [Meets, on_pop_whole stack]
  cases isNumber : machine.wholeOf? item with
  | none => rfl
  | some number =>
    have range := fits item number rfl isNumber
    have inside : ¬(number < 1 ∨ 255 < number) := by omega
    dsimp only
    rw [if_neg inside]
    rfl

theorem honours_open (number : Int) : Honours 2 0 (do
    let code ← popInt
    let path ← popText
    match FileMode.ofCode? code with
    | none => fail (.badFileMode code)
    | some mode =>
      if ((← get).files.get? number).isSome then fail (.fileAlreadyOpen number)
      else
        match mode with
        | .input => suspend (.loadFile path) (.openInput number path)
        | _ => setFile number (.output path mode) : Run σ Unit) := by
  refine honours_take takes_int fun code => honours_take takes_text fun path => ?_
  cases FileMode.ofCode? code with
  | none => exact honours_fail _
  | some mode =>
    refine honours_spare spares_get fun machine => honours_unless _ ?_
    cases mode with
    | input => exact honours_suspend _ _ (nomatch ·)
    | _ => exact honours_end (spares_set_file number _)

theorem settles_open {machine : Machine σ} {items rest : List StackItem} (isNone : machine.pending = none)
    (stack : machine.stack = items ++ rest) (length : items.length = 3) (fits : FileNumberFits machine items) :
    Settles 0 rest openFile machine := by
  obtain ⟨item, others, rfl⟩ := List.exists_cons_of_length_eq_add_one length
  exact settles_after isNone (Nat.succ.inj length) (meets_file_number stack fits) honours_open

theorem settles_builtin (devices : Devices σ) (builtin : Builtin) {machine : Machine σ}
    {items rest : List StackItem} (isNone : machine.pending = none) (stack : machine.stack = items ++ rest)
    (passes : machine.Passes builtin items) (fits : builtin = .openFile → FileNumberFits machine items) :
    Settles builtin.results rest (Run.builtin devices builtin) machine := by
  unfold Machine.Passes at passes
  cases isPassing : builtin.passing with
  | fixed =>
    rw [isPassing] at passes
    -- `_OPEN` is the only one that can fail recoverably before it has taken all its arguments.
    by_cases isOpen : builtin = .openFile
    · cases isOpen
      exact settles_open isNone stack passes (fits rfl)
    · exact honours_fixed devices builtin isPassing isOpen machine items rest isNone stack passes
  | counted =>
    rw [isPassing] at passes
    obtain ⟨item, given, rfl, isCount, enough, few⟩ := passes
    obtain ⟨next, same, honours⟩ := honours_by_count devices builtin isPassing
    rw [same]
    exact settles_counted isNone stack isCount few (honours _ enough few)
  | variadic =>
    rw [isPassing] at passes
    obtain ⟨item, values, fixed, rfl, isCount, length⟩ := passes
    refine settles_variadic devices builtin isPassing isNone ?_ isCount length
    rw [stack, List.cons_append, List.append_assoc]

end Run

theorem Registry.standard_lookup (builtin : Builtin) : Registry.standard.lookup? builtin.name = some builtin := by
  have every : ∀ builtin ∈ Builtin.all, Registry.standard.lookup? builtin.name = some builtin := by
    decide +kernel
  exact every builtin (by cases builtin <;> decide)

theorem Setup.standard_lookup {σ : Type} {setup : Setup σ} (standard : setup.registry = .standard) (builtin : Builtin) :
    setup.registry.lookup? builtin.name = some builtin := by
  rw [standard, Registry.standard_lookup]

namespace Run

variable {σ : Type} {setup : Setup σ} {builtin : Builtin} {machine : Machine σ} {rest : List StackItem}

theorem settles_syscall (standard : setup.registry = .standard)
    (settles : Settles builtin.results rest (Run.builtin setup.devices builtin) machine) :
    Meets (execute setup (.syscall builtin.name)) machine (fun _ after => after.Settled builtin.results rest)
      fun error _ => error.isRecoverable = false := by
  rw [execute, syscall, standard, Registry.standard_lookup]
  unfold Settles Meets at settles
  rw [Meets, on_catch]
  generalize (Run.builtin setup.devices builtin).on machine = outcome at settles
  obtain ⟨result, after⟩ := outcome
  cases result with
  | ok result => exact settles
  | error error =>
    cases recoverable : error.isRecoverable with
    | false =>
      simp only [recoverable]
      exact recoverable
    | true =>
      -- The arguments are gone; a function still owes its result, which is the default of its type.
      obtain ⟨stack, isNone, -⟩ := settles recoverable
      simp only [recoverable, if_true]
      cases returns : builtin.signature.returns with
      | none =>
        have procedure : builtin.results = 0 := by simp [Builtin.results, Builtin.isFunction, returns]
        rw [procedure]
        exact Machine.settled_done [] isNone stack rfl
      | some ty =>
        have function : builtin.results = 1 := by simp [Builtin.results, Builtin.isFunction, returns]
        have pushed : (do
            setStatus error.code
            if (← get).pending.isNone then push ty.default : Run σ Unit).on after =
              (.ok (), { after with status := error.code, stack := .value ty.default :: after.stack }) := by
          rw [setStatus, on_seq (on_modify _ _), on_seq (on_get _), isNone]
          rfl
        dsimp only
        rw [function, pushed]
        exact Machine.settled_done [.value ty.default] isNone (congrArg _ stack) rfl

theorem syscall_recovers (standard : setup.registry = .standard) {error : RuntimeError}
    {failed after : Machine σ} (isError : (Run.builtin setup.devices builtin).on machine = (.error error, failed))
    (ran : (execute setup (.syscall builtin.name)).on machine = (.ok (), after)) :
    error.isRecoverable = true ∧ failed.Steady after := by
  rw [execute, syscall, standard, Registry.standard_lookup] at ran
  dsimp only at ran
  rw [on_catch, isError] at ran
  cases recoverable : error.isRecoverable with
  | false =>
    simp only [recoverable] at ran
    cases ran
  | true =>
    refine ⟨rfl, ?_⟩
    simp only [recoverable, if_true] at ran
    rw [setStatus, on_seq (on_modify _ _)] at ran
    cases returns : builtin.signature.returns with
    | none =>
      rw [returns] at ran
      cases ran
      exact ⟨rfl, rfl, rfl, rfl⟩
    | some ty =>
      rw [returns] at ran
      dsimp only at ran
      rw [on_seq (on_get _)] at ran
      split at ran
      · cases ran
        exact ⟨rfl, rfl, rfl, rfl⟩
      · cases ran
        exact ⟨rfl, rfl, rfl, rfl⟩

theorem require_reply {ι : Type} {name : String} {device? : Option ι} {action : ι → DeviceAction σ Reply}
    {world after : σ} {reply : Reply} (answered : Devices.require name device? action world = (.ok reply, after)) :
    ∃ device, action device world = (.ok reply, after) := by
  cases device? with
  | none => cases answered
  | some device => exact ⟨device, answered⟩

theorem map_reply_not {ι : Type} {reply : ι → Reply} {action : DeviceAction σ ι} {world after : σ} {found : Reply}
    (answered : Devices.mapReply reply action world = (.ok found, after)) : ∃ value, reply value = found := by
  have mapped : (action world).1.map reply = .ok found := congrArg Prod.fst answered
  cases result : (action world).1 with
  | error error =>
    rw [result] at mapped
    cases mapped
  | ok value =>
    rw [result] at mapped
    exact ⟨value, Except.ok.inj mapped⟩

theorem perform_handle {devices : Devices σ} {request : Request} {world after : σ} {handle : Int}
    (answered : devices.perform request world = (.ok (.handle handle), after)) :
    ∃ url, request = .openSocket url := by
  cases request with
  | openSocket url => exact ⟨url, rfl⟩
  | readLine => exact nomatch (map_reply_not answered).choose_spec
  | sleep time => cases answered
  | _ =>
    obtain ⟨device, performed⟩ := require_reply answered
    exact nomatch (map_reply_not performed).choose_spec

section Resume

variable {pending : Pending}

theorem commits_assign_fields (targets : List Cell) (fields : List String) :
    Commits (assignFields targets fields : Run σ Unit) := by
  induction targets generalizing fields with
  | nil => exact commits_nothing ()
  | cons target rest ih =>
    exact commits_seq (fun _ => ⟨rfl, rfl⟩ : Commits (get : Run σ (Machine σ))) fun _ =>
      commits_seq (commits_assign target _) fun _ => ih fields.tail

theorem meets_commit {action : Run σ Unit} (commits : Commits action) (isNone : machine.pending = none)
    (stack : machine.stack = rest) :
    Meets action machine (fun _ last => last.pending = none ∧ ∃ given, last.stack = given ++ rest ∧ given.length = 0)
      fun _ _ => True := by
  refine meets_weaken (commits machine) ?_ fun _ _ _ => trivial
  rintro _ last ⟨same, none⟩
  exact ⟨none.trans isNone, [], same.trans stack, rfl⟩

theorem meets_complete_text (text : String) (isNone : machine.pending = none) (stack : machine.stack = rest) :
    Meets (completeText text pending.completion) machine
      (fun _ last => last.pending = none ∧ ∃ given, last.stack = given ++ rest ∧ given.length = pending.results)
      fun _ _ => pending.results = 0 := by
  obtain ⟨request, completion⟩ := pending
  cases completion with
  | ignore => exact ⟨isNone, [], stack, rfl⟩
  | input targets =>
    exact meets_weaken (meets_commit (commits_assign_fields targets _) isNone stack) (fun _ _ last => last)
      fun _ _ _ => rfl
  | lineInput target =>
    exact meets_weaken (meets_commit (commits_assign target _) isNone stack) (fun _ _ last => last) fun _ _ _ => rfl
  | openInput number path => exact ⟨isNone, [], stack, rfl⟩
  | pushString => exact ⟨isNone, [.value (.string text)], congrArg _ stack, rfl⟩
  | pushLong => exact ⟨isNone, [.value _], congrArg _ stack, rfl⟩

theorem meets_complete (answerable : pending.Answerable) {devices : Devices σ} {world after : σ} {reply : Reply}
    (answered : devices.perform pending.request world = (.ok reply, after)) (isNone : machine.pending = none)
    (stack : machine.stack = rest) :
    Meets (complete pending.completion reply) machine
      (fun _ last => last.pending = none ∧ ∃ given, last.stack = given ++ rest ∧ given.length = pending.results)
      fun _ _ => pending.results = 0 := by
  cases reply with
  | text text => exact meets_complete_text text isNone stack
  | done => exact meets_complete_text "" isNone stack
  | handle handle =>
    -- A number instead of a text comes for a request of a socket only, which asks for a `LONG`.
    obtain ⟨url, isSocket⟩ := perform_handle answered
    obtain ⟨request, completion⟩ := pending
    cases completion with
    | pushString => exact absurd isSocket (answerable rfl url)
    | pushLong => exact ⟨isNone, [.value _], congrArg _ stack, rfl⟩
    | _ => exact ⟨isNone, [], stack, rfl⟩

theorem meets_complete_failed (isNone : machine.pending = none) (stack : machine.stack = rest) :
    Meets (completeFailed pending.completion) machine
      (fun _ last => last.pending = none ∧ ∃ given, last.stack = given ++ rest ∧ given.length = pending.results)
      fun _ _ => pending.results = 0 := by
  obtain ⟨request, completion⟩ := pending
  cases completion with
  | pushString => exact ⟨isNone, [.value _], congrArg _ stack, rfl⟩
  | pushLong => exact ⟨isNone, [.value _], congrArg _ stack, rfl⟩
  | _ => exact ⟨isNone, [], stack, rfl⟩

theorem meets_failing {α : Type} {action : Run σ α} {locus : Option Locus} {good : α → Machine σ → Prop}
    {bad : Prop} (meets : Meets action machine good fun _ _ => bad) :
    Meets (failing locus action) machine good fun _ _ => bad := by
  unfold Meets at meets ⊢
  rw [failing, on_catch]
  generalize action.on machine = outcome at meets
  obtain ⟨result, after⟩ := outcome
  cases result with
  | ok result => exact meets
  | error error => exact meets

theorem meets_resume {results : Nat} (settled : machine.Settled results rest)
    (waits : machine.pending = some pending) {devices : Devices σ} {world after : σ}
    {reply : Except DeviceError Reply} (answered : devices.perform pending.request world = (reply, after)) :
    Meets (resume reply) machine
      (fun _ last => last.pending = none ∧ ∃ given, last.stack = given ++ rest ∧ given.length = results)
      fun _ _ => results = 0 := by
  rw [Machine.Settled, waits] at settled
  obtain ⟨stack, rfl, answerable⟩ := settled
  have goes (last : Machine σ) (given : List StackItem) (isNone : last.pending = none)
      (same : last.stack = given ++ rest) (length : given.length = pending.results) :
      Meets (modify fun machine => machine.setPhase .running : Run σ Unit) last
        (fun _ last => last.pending = none ∧ ∃ given, last.stack = given ++ rest ∧ given.length = pending.results)
        fun _ _ => pending.results = 0 := by
    obtain ⟨notices, runs⟩ := last.set_phase_only .running
    rw [Meets, on_modify, runs]
    exact ⟨isNone, given, same, length⟩
  rw [resume]
  refine meets_seq ?_
  rw [Meets, on_get]
  dsimp only
  rw [waits]
  refine meets_seq (meets_seq (meets_failing ?_))
  cases reply with
  | ok reply =>
    refine meets_weaken (meets_seq (meets_complete answerable answered rfl stack)) ?_ fun _ _ nothing => nothing
    rintro _ last ⟨isNone, given, same, length⟩
    exact goes last given isNone same length
  | error error =>
    refine meets_weaken (meets_seq (meets_complete_failed rfl stack)) ?_ fun _ _ nothing => nothing
    rintro _ last ⟨isNone, given, same, length⟩
    exact goes last given isNone same length

end Resume

end Run

/-- A builtin takes exactly its arguments. A function leaves one result, at once or after one reply of its
device, and a procedure leaves none. Where the builtin fails recoverably, the variables, the frames and the
next instruction are as they were. -/
theorem builtin_call_keeps_convention {σ : Type} (setup : Setup σ) (standard : setup.registry = .standard)
    (builtin : Builtin) (machine after : Machine σ) (arguments rest : List StackItem)
    (waitsForNothing : machine.pending = none) (stack : machine.stack = arguments ++ rest)
    (passes : machine.Passes builtin arguments)
    (fits : builtin = .openFile → Run.FileNumberFits machine arguments)
    (ran : (Run.execute setup (.syscall builtin.name)).on machine = (.ok (), after)) :
    (after.pending = none → ∃ given, after.stack = given ++ rest ∧ given.length = builtin.results) ∧
      (∀ pending, after.pending = some pending → after.stack = rest ∧
        ∀ world reply later, setup.devices.perform pending.request world = (reply, later) →
          match (Run.resume reply).on after with
          | (.ok _, last) => last.pending = none ∧
              ∃ given, last.stack = given ++ rest ∧ given.length = builtin.results
          | (.error _, _) => builtin.isFunction = false) ∧
      ∀ error failed, (Run.builtin setup.devices builtin).on machine = (.error error, failed) →
        machine.Steady after := by
  have settles := Run.settles_builtin setup.devices builtin waitsForNothing stack passes fits
  -- Either the results are on the stack or a device owes them, and one reply is all that is owed.
  have settled : after.Settled builtin.results rest := by
    have meets := Run.settles_syscall standard settles
    rw [Run.Meets, ran] at meets
    exact meets
  refine ⟨fun isNone => ?_, fun pending waits => ?_, fun error failed isError => ?_⟩
  · rw [Machine.Settled, isNone] at settled
    exact settled
  · refine ⟨?_, fun world reply later answered => ?_⟩
    · rw [Machine.Settled, waits] at settled
      exact settled.1
    · have resumes := Run.meets_resume settled waits answered
      unfold Run.Meets at resumes
      generalize (Run.resume reply).on after = outcome at resumes
      obtain ⟨result, last⟩ := outcome
      cases result with
      | ok _ => exact resumes
      | error _ => simpa [Builtin.results] using resumes
  · obtain ⟨recoverable, last⟩ := Run.syscall_recovers standard isError ran
    rw [Run.Settles, Run.Meets, isError] at settles
    obtain ⟨-, -, steady⟩ := settles recoverable
    exact steady.trans last

def sampleFetch : Machine Bench :=
  { Machine.create Bench.empty with
    phase := .running, stack := [.value (.string "page"), .value (.integer 7)] }

theorem fetch_keeps_convention : ∃ after,
    (Run.execute (.ofDevices Bench.bare .standard) (.syscall "FETCH$")).on sampleFetch = (.ok (), after) ∧
      after.stack = [.value (.integer 7)] ∧
      match (Run.resume (.error (.unsupported "network"))).on after with
      | (.ok _, last) => ∃ given, last.stack = given ++ [.value (.integer 7)] ∧ given.length = 1
      | (.error _, _) => False := by
  have ran : (Run.execute (.ofDevices Bench.bare .standard) (.syscall Builtin.fetch.name)).on sampleFetch =
      (.ok (), { sampleFetch with
        pending := some ⟨.fetch "page", .pushString⟩, phase := .suspended, notices := [.suspended]
        stack := [.value (.integer 7)] }) := by
    have found : (Setup.ofDevices Bench.bare .standard).registry.lookup? Builtin.fetch.name = some .fetch :=
      Registry.standard_lookup .fetch
    rw [Run.execute, Run.syscall, found]
    rfl
  obtain ⟨-, waits, -⟩ := builtin_call_keeps_convention (.ofDevices Bench.bare .standard) rfl .fetch sampleFetch _
    [.value (.string "page")] [.value (.integer 7)] rfl rfl rfl (by simp) ran
  obtain ⟨stack, resumes⟩ := waits _ rfl
  have replied := resumes Bench.empty _ _ rfl
  exact ⟨_, ran, stack, replied.2⟩

namespace Run

variable {σ : Type}

theorem open_outside_leaves_two (setup : Setup σ) (standard : setup.registry = .standard) (machine : Machine σ)
    {item mode path : StackItem} {rest : List StackItem} {number : Int}
    (stack : machine.stack = item :: mode :: path :: rest) (isNumber : machine.wholeOf? item = some number)
    (outside : number < 1 ∨ 255 < number) :
    (execute setup (.syscall Builtin.openFile.name)).on machine =
      (.ok (), { machine with stack := mode :: path :: rest, status := 52 }) := by
  have refused : (openFile : Run σ Unit).on machine =
      (.error (.ofFault (.badFileNumber number)), { machine with stack := mode :: path :: rest }) := by
    refine on_stop ?_
    rw [popFileNumber, on_bind, on_pop_whole stack, isNumber]
    dsimp only
    rw [if_pos outside]
    rfl
  rw [execute, syscall, standard, Registry.standard_lookup]
  dsimp only
  rw [on_catch, builtin, refused]
  rfl

end Run

def sampleOpen : Machine Bench :=
  { Machine.create Bench.empty with
    phase := .running
    stack := [.value (.integer 300), .value (.integer 1), .value (.string "x"), .value (.integer 7)] }

theorem open_300_breaks_convention : ∃ after,
    sampleOpen.Passes .openFile [.value (.integer 300), .value (.integer 1), .value (.string "x")] ∧
      sampleOpen.pending = none ∧
      (Run.execute (.ofDevices Bench.bare .standard) (.syscall Builtin.openFile.name)).on sampleOpen =
        (.ok (), after) ∧
      after.pending = none ∧
      ¬∃ given, after.stack = given ++ [.value (.integer 7)] ∧ given.length = Builtin.openFile.results := by
  have ran := Run.open_outside_leaves_two (.ofDevices Bench.bare .standard) rfl sampleOpen rfl
    (by decide +kernel : sampleOpen.wholeOf? (.value (.integer 300)) = some 300) (by decide)
  refine ⟨_, rfl, rfl, ran, rfl, ?_⟩
  rintro ⟨given, same, length⟩
  cases List.length_eq_zero_iff.mp length
  cases same

end BasicLang
