import BasicLang.Proofs.Code.ExprCode
import BasicLang.Proofs.Interpretation

set_option autoImplicit false

namespace BasicLang

def Value.isScalar : Value → Bool
  | .array _ _ _ => false
  | .record _ _ _ => false
  | _ => true

inductive Slot where
  | value (value : Value)
  | storage (name : String)

structure Point where
  next : Nat
  stack : List Slot
  environment : Environment

def Image.Fetches (image : Image) (place : Nat) (op : Op) : Prop :=
  ∃ locus, image.instructions[place]? = some ⟨op, locus⟩

namespace Point

inductive Moves (image : Image) : Point → Except Fault Point → Prop where
  | constant {next : Nat} {stack : List Slot} {environment : Environment} {value : Value}
      (fetches : image.Fetches next (.pushConst value)) (scalar : value.isScalar = true) :
      Moves image ⟨next, stack, environment⟩ (.ok ⟨next + 1, .value value :: stack, environment⟩)
  | «variable» {next : Nat} {stack : List Slot} {environment : Environment} {name : String}
      (fetches : image.Fetches next (.pushValue name)) :
      Moves image ⟨next, stack, environment⟩
        (.ok ⟨next + 1, .value (environment.find name).1 :: stack, (environment.find name).2⟩)
  | storage {next : Nat} {stack : List Slot} {environment : Environment} {name : String}
      (fetches : image.Fetches next (.pushRef name)) :
      Moves image ⟨next, stack, environment⟩
        (.ok ⟨next + 1, .storage name :: stack, (environment.find name).2⟩)
  | binary {next : Nat} {stack : List Slot} {environment : Environment} {operator : BinaryOperator}
      {left right : Value} (fetches : image.Fetches next (.binary operator)) :
      Moves image ⟨next, .value right :: .value left :: stack, environment⟩ do
        return ⟨next + 1, .value (← Fault.ofArithmetic (operator.apply left right)) :: stack, environment⟩
  | unary {next : Nat} {stack : List Slot} {environment : Environment} {operator : UnaryOperator}
      {value : Value} (fetches : image.Fetches next operator.op) :
      Moves image ⟨next, .value value :: stack, environment⟩ do
        return ⟨next + 1, .value (← Fault.ofArithmetic (operator.apply value)) :: stack, environment⟩
  | assign {next : Nat} {stack : List Slot} {environment : Environment} {name : String} {value : Value}
      (fetches : image.Fetches next .assign) :
      Moves image ⟨next, .value value :: .storage name :: stack, environment⟩ do
        return ⟨next + 1, stack, ← environment.assign name value⟩
  -- A new variable of the same name would leave the storage on the stack behind.
  | dim {next : Nat} {environment : Environment} {name : String} {ty : Ty}
      (fetches : image.Fetches next (.dim name ty)) (scalar : ty.default.isScalar = true) :
      Moves image ⟨next, [], environment⟩ (.ok ⟨next + 1, [], environment.set name ty.default⟩)
  | jump {next place : Nat} {stack : List Slot} {environment : Environment}
      (fetches : image.Fetches next (.jump (.resolved place))) :
      Moves image ⟨next, stack, environment⟩ (.ok ⟨place, stack, environment⟩)
  | jumpIfZero {next place : Nat} {stack : List Slot} {environment : Environment} {value : Value}
      (fetches : image.Fetches next (.jumpIfZero (.resolved place))) :
      Moves image ⟨next, .value value :: stack, environment⟩
        (.ok ⟨if value.isTrue then next + 1 else place, stack, environment⟩)
  | jumpIfNonzero {next place : Nat} {stack : List Slot} {environment : Environment} {value : Value}
      (fetches : image.Fetches next (.jumpIfNonzero (.resolved place))) :
      Moves image ⟨next, .value value :: stack, environment⟩
        (.ok ⟨if value.isTrue then place else next + 1, stack, environment⟩)
  | forLoop {next place : Nat} {stack : List Slot} {environment : Environment} {counter last step : Value}
      (fetches : image.Fetches next (.forLoop (.resolved place))) :
      Moves image ⟨next, .value step :: .value last :: .value counter :: stack, environment⟩ do
        let step ← step.number
        let last ← last.number
        let number ← counter.number
        return ⟨if if 0 ≤ step then last < number else number < last then place else next + 1, stack,
          environment⟩
  | forStep {next : Nat} {stack : List Slot} {environment : Environment} {counter : String} {step : Value}
      (fetches : image.Fetches next .forStep) :
      Moves image ⟨next, .value step :: .storage counter :: stack, environment⟩ do
        return ⟨next + 1, stack, ← environment.advance counter step⟩

inductive Steps (image : Image) : Nat → Point → Point → Prop where
  | refl (point : Point) : Steps image 0 point point
  | head {count : Nat} {first second last : Point} (moves : Moves image first (.ok second))
      (steps : Steps image count second last) : Steps image (count + 1) first last

variable {image : Image}

theorem Moves.inside {point : Point} {outcome : Except Fault Point} (moves : Moves image point outcome) :
    point.next < image.instructions.size := by
  have fetched : ∃ op, image.Fetches point.next op := by cases moves <;> exact ⟨_, ‹_›⟩
  obtain ⟨op, locus, found⟩ := fetched
  exact (Array.getElem?_eq_some_iff.mp found).1

theorem Steps.inside {count : Nat} {first last : Point} (steps : Steps image count first last)
    (inside : last.next < image.instructions.size) : first.next < image.instructions.size := by
  cases steps with
  | refl point => exact inside
  | head moves rest => exact moves.inside

theorem Steps.split {early late : Nat} {first last : Point} (steps : Steps image (early + late) first last) :
    ∃ middle, Steps image early first middle ∧ Steps image late middle last := by
  induction early generalizing first with
  | zero => exact ⟨first, .refl first, by rwa [Nat.zero_add] at steps⟩
  | succ early ih =>
    rw [Nat.add_right_comm] at steps
    cases steps with
    | head moves rest =>
      obtain ⟨middle, before, after⟩ := ih rest
      exact ⟨middle, .head moves before, after⟩

theorem Steps.trans {early late : Nat} {first second third : Point} (before : Steps image early first second)
    (after : Steps image late second third) : Steps image (early + late) first third := by
  induction before with
  | refl point => rwa [Nat.zero_add]
  | head moves _ ih =>
    rw [Nat.add_right_comm]
    exact .head moves (ih after)

/-- Code follows an interpretation: it goes on for a number of moves at least where that is unfinished,
has its fault, or comes to a point that its result describes. -/
def Follows {α : Type} (image : Image) (least : Nat) (point : Point) (outcome : Interpretation α)
    (reaches : α → Point → Prop) : Prop :=
  match outcome.run with
  | none => ∃ count last, least ≤ count ∧ Steps image count point last
  | some (.error fault) => ∃ count last, Steps image count point last ∧ Moves image last (.error fault)
  | some (.ok result) => ∃ count last, Steps image count point last ∧ reaches result last

variable {α β : Type} {least : Nat} {point : Point}

theorem follows_unit {result : α} {reaches : α → Point → Prop} (here : reaches result point) :
    Follows image least point (pure result) reaches :=
  ⟨0, point, .refl point, here⟩

theorem follows_seq {outcome : Interpretation α} {next : α → Interpretation β}
    {between : α → Point → Prop} {reaches : β → Point → Prop}
    (first : Follows image least point outcome between)
    (rest : ∀ result middle, between result middle → Follows image least middle (next result) reaches) :
    Follows image least point (outcome >>= next) reaches := by
  unfold Follows at first ⊢
  rw [ExceptT.run_bind]
  cases ended : outcome.run with
  | none =>
    rw [ended] at first
    exact first
  | some found =>
    rw [ended] at first
    cases found with
    | error fault => exact first
    | ok result =>
      obtain ⟨count, middle, steps, here⟩ := first
      have further := rest result middle here
      unfold Follows at further
      show match (next result).run with
        | none => _
        | some (.error fault) => _
        | some (.ok result) => _
      cases finished : (next result).run with
      | none =>
        rw [finished] at further
        obtain ⟨more, last, enough, stepsRest⟩ := further
        exact ⟨count + more, last, Nat.le_trans enough (Nat.le_add_left _ _), steps.trans stepsRest⟩
      | some found =>
        rw [finished] at further
        cases found with
        | error fault =>
          obtain ⟨more, last, stepsRest, fails⟩ := further
          exact ⟨count + more, last, steps.trans stepsRest, fails⟩
        | ok final =>
          obtain ⟨more, last, stepsRest, there⟩ := further
          exact ⟨count + more, last, steps.trans stepsRest, there⟩

theorem follows_then {first : Except Fault α} {next : α → Except Fault β} {between : α → Point → Prop}
    {reaches : β → Point → Prop} (follows : Follows image least point (.ofResult first) between)
    (rest : ∀ result middle, between result middle →
      Follows image least middle (.ofResult (next result)) reaches) :
    Follows image least point (.ofResult (first >>= next)) reaches := by
  have same : Interpretation.ofResult (first >>= next) =
      Interpretation.ofResult first >>= fun result => .ofResult (next result) := by
    cases first <;> rfl
  rw [same]
  exact follows_seq follows rest

theorem follows_weaken {outcome : Interpretation α} {reaches wider : α → Point → Prop}
    (follows : Follows image least point outcome reaches)
    (view : ∀ result last, reaches result last → wider result last) :
    Follows image least point outcome wider := by
  have same : outcome = outcome >>= pure := (bind_pure outcome).symm
  rw [same]
  exact follows_seq follows fun result last here => follows_unit (view result last here)

theorem follows_move {outcome : Interpretation α} {reaches : α → Point → Prop} {second : Point}
    (moves : Moves image point (.ok second)) (follows : Follows image least second outcome reaches) :
    Follows image least point outcome reaches := by
  have first : Follows image least point (pure () : Interpretation Unit) fun _ last => last = second :=
    ⟨1, second, .head moves (.refl second), rfl⟩
  have both := follows_seq first fun _ middle here => here ▸ follows
  rwa [pure_bind] at both

theorem follows_result {result : Except Fault α} {reached : α → Point}
    (moves : Moves image point (do return reached (← result))) :
    Follows image least point (.ofResult result) fun value last => last = reached value := by
  cases result with
  | error fault => exact ⟨0, point, .refl point, moves⟩
  | ok value => exact ⟨1, reached value, .head moves (.refl _), rfl⟩

end Point

end BasicLang
