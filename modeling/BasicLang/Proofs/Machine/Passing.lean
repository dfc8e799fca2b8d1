import BasicLang.Proofs.Code.Arguments
import BasicLang.Proofs.Machine.Iteration

set_option autoImplicit false

namespace BasicLang

namespace Run

variable {σ : Type} {setup : Setup σ} {machine last : Machine σ} {name : String} {element : Ty} {rank : Nat} {cell slot : Cell}
  {rest : List StackItem}

theorem on_name_array (sound : machine.Sound)
    (ran : (execute setup (.pushArray name element rank)).on machine = (.ok (), last)) :
    last.frames = machine.frames ∧ last.next = machine.next ∧
      ∃ cell, last.stack = .reference cell :: machine.stack ∧ last.lookup? name = some cell := by
  rw [execute, arrayCell, bind_assoc, on_seq (on_get machine)] at ran
  cases bound : machine.lookup? name with
  | some cell =>
    rw [bound] at ran
    dsimp only at ran
    rw [bind_assoc, on_seq (on_get machine)] at ran
    cases held : machine.store.content cell with
    | array =>
      rw [held] at ran
      cases ran
      exact ⟨rfl, rfl, cell, rfl, bound⟩
    | plain | record =>
      rw [held] at ran
      cases ran
  | none =>
    rw [bound] at ran
    cases ran
    exact ⟨rfl, rfl, _, rfl, (Machine.bind_lookup sound _ _ _ _).trans (if_pos rfl)⟩

theorem on_name_element {values : List Value} {indices : List Int} {grid : Grid Cell}
    (stack : machine.stack = values.reverse.map .value ++ .reference cell :: rest)
    (numbers : values.map Value.toInt? = indices.map some) (holds : machine.store.content cell = .array element grid)
    (isSlot : grid.get indices = .ok slot) : (execute setup (.arrayDeref values.length true)).on machine =
      (.ok (), { machine with stack := .reference slot :: rest }) := by
  have whole : values.filterMap Value.toInt? = indices := by
    calc
      values.filterMap Value.toInt? = (values.map Value.toInt?).filterMap id := by rw [List.filterMap_map, Function.id_comp]
      _ = indices := by rw [numbers, List.filterMap_map, Function.id_comp, List.filterMap_some]
  have each : ∀ value ∈ values.reverse, value.toInt?.isSome = true := by
    intro value inside
    have isNumber : value.toInt? ∈ indices.map some := numbers ▸ List.mem_map_of_mem (List.mem_reverse.mp inside)
    obtain ⟨number, -, same⟩ := List.mem_map.mp isNumber
    rw [← same]
    rfl
  have popped := on_pop_ints (σ := σ) values.reverse [] each stack
  rw [List.length_reverse, List.filterMap_reverse, List.reverse_reverse, List.append_nil, whole] at popped
  rw [execute, arrayDeref, popInts, on_seq popped, on_seq (on_pop_reference rfl), on_seq (on_get _)]
  dsimp only
  rw [holds]
  dsimp only
  rw [isSlot]
  rfl

theorem on_name_member {owner : String} {members : Members} {fields : Array Cell}
    (stack : machine.stack = .reference cell :: rest) (holds : machine.store.content cell = .record owner members fields)
    (isField : (members.index? name).bind (fields[·]?) = some slot) :
    (execute setup (.memberDeref name true)).on machine = (.ok (), { machine with stack := .reference slot :: rest }) := by
  rw [execute, memberDeref, on_seq (on_pop stack)]
  dsimp only
  rw [on_seq (on_get _)]
  dsimp only
  rw [holds]
  dsimp only
  rw [isField]
  rfl

end Run

namespace Machine

variable {σ : Type} (setup : Setup σ) (base : List Frame)

def Remains (machine : Machine σ) : Prop := base <:+ ((Run.step setup).on machine).2.frames

structure Pauses (machine after : Machine σ) : Prop where
  onward : Onward setup (Remains setup base) machine after
  next : after.next = machine.next
  frames : after.frames = machine.frames
  stack : after.stack = machine.stack

theorem Advances.onward {setup : Setup σ} {base : List Frame} {machine after : Machine σ}
    (advances : machine.Advances setup after) (remains : base <:+ after.frames) :
    Onward setup (Remains setup base) machine after := by
  have stepped : ((Run.step setup).on machine).2 = after := congrArg Prod.snd advances.2
  rw [← stepped] at remains ⊢
  exact .step .refl remains

/-- The code of storage, which ends at a place, has run. The storage is a cell: that of the variable in the scope that the
code runs in, the element with these subscripts, the member of the record. -/
inductive Names : Expr → Nat → Machine σ → Cell → Machine σ → Prop where
  | variable {name : String} {info : ExprInfo} {stop : Nat} {machine ready after : Machine σ} {cell : Cell}
      (pauses : machine.Pauses setup base ready) (advances : ready.Advances setup after)
      (bound : after.lookup? name = some cell) : Names (.variable name info) stop machine cell after
  | whole {name : String} {info : ExprInfo} {stop : Nat} {machine ready after : Machine σ} {cell : Cell}
      (pauses : machine.Pauses setup base ready) (advances : ready.Advances setup after)
      (bound : after.lookup? name = some cell) : Names (.apply name [] .element info) stop machine cell after
  -- The code of the subscripts leaves their values.
  | element {name : String} {info : ExprInfo} {first : Expr} {rest : List Expr} {stop : Nat} {element : Ty} {grid : Grid Cell}
      {values : List Value} {indices : List Int} {machine ready named indexed after : Machine σ} {array cell : Cell}
      (pauses : machine.Pauses setup base ready) (names : ready.Advances setup named)
      (bound : named.lookup? name = some array) (onward : Onward setup (Remains setup base) named indexed)
      (place : indexed.next = stop) (frames : indexed.frames = base)
      (stack : indexed.stack = values.reverse.map .value ++ named.stack) (count : values.length = rest.length + 1)
      (advances : indexed.Advances setup after) (numbers : values.map Value.toInt? = indices.map some)
      (holds : indexed.store.content array = .array element grid) (isSlot : grid.get indices = .ok cell) :
      Names (.apply name (first :: rest) .element info) (stop + 1) machine cell after
  | member {object : Expr} {name : String} {info : ExprInfo} {stop : Nat} {owner : String} {members : Members}
      {fields : Array Cell} {machine between ready after : Machine σ} {record cell : Cell}
      (names : Names object stop machine record between) (pauses : between.Pauses setup base ready)
      (advances : ready.Advances setup after) (holds : ready.store.content record = .record owner members fields)
      (isField : (members.index? name).bind (fields[·]?) = some cell) :
      Names (.member object name info) (stop + 1) machine cell after
  | grouped {inner : Expr} {info : ExprInfo} {stop : Nat} {machine after : Machine σ} {cell : Cell}
      (names : Names inner stop machine cell after) : Names (.grouped inner info) stop machine cell after

/-- The code of arguments has run. Those that are shared have named a cell, and each of the others has left its value. -/
inductive Passing : List Ty → List Expr → List Nat → Machine σ → List StackItem → Machine σ → Prop where
  | nil {params : List Ty} {machine after : Machine σ} (pauses : machine.Pauses setup base after) :
      Passing params [] [] machine [] after
  | storage {params : List Ty} {first : Expr} {rest : List Expr} {stop : Nat} {stops : List Nat}
      {machine between after : Machine σ} {cell : Cell} {items : List StackItem}
      (isShared : first.isShared params.head? = true) (names : Names setup base first stop machine cell between)
      (others : Passing params.tail rest stops between items after) :
      Passing params (first :: rest) (stop :: stops) machine (.reference cell :: items) after
  | value {params : List Ty} {first : Expr} {rest : List Expr} {stop : Nat} {stops : List Nat}
      {machine between after : Machine σ} {value : Value} {items : List StackItem}
      (isValue : first.isShared params.head? = false) (onward : Onward setup (Remains setup base) machine between)
      (place : between.next = stop) (frames : between.frames = base) (stack : between.stack = .value value :: machine.stack)
      (others : Passing params.tail rest stops between items after) :
      Passing params (first :: rest) (stop :: stops) machine (.value value :: items) after

structure Arrives (most : Nat) (image : Image) (spans : List Span) (place : Nat) (stack : List StackItem) (machine : Machine σ) :
    Prop extends machine.Above most image spans base where
  frames : machine.frames = base
  next : machine.next = place
  stack : machine.stack = stack

section Arriving

variable {setup base} {image : Image} {symbols : SymbolTable} {spans : List Span} {stands : Stand} {place stop next : Nat}
  {stack items : List StackItem} {machine after : Machine σ} {name : String} {element : Ty} {rank : Nat} {cell : Cell}
  {expr : Expr}

variable (contained : image.Contained spans) (receives : image.Receives symbols spans)
include contained receives

theorem Arrives.onward (arrives : machine.Arrives base setup.maxDepth image spans place stack)
    (onward : Onward setup (Remains setup base) machine after) (frames : after.frames = base) (isNext : after.next = next)
    (left : after.stack = items) : after.Arrives base setup.maxDepth image spans next items :=
  ⟨arrives.toAbove.onward contained receives (fun _ remains => remains) onward, frames, isNext, left⟩

theorem Arrives.pause (arrives : machine.Arrives base setup.maxDepth image spans place stack)
    (pauses : machine.Pauses setup base after) : after.Arrives base setup.maxDepth image spans place stack :=
  arrives.onward contained receives pauses.onward (pauses.frames.trans arrives.frames) (pauses.next.trans arrives.next)
    (pauses.stack.trans arrives.stack)

theorem Arrives.advance (arrives : machine.Arrives base setup.maxDepth image spans place stack)
    (advances : machine.Advances setup after) (frames : after.frames = machine.frames) (isNext : after.next = next)
    (left : after.stack = items) : after.Arrives base setup.maxDepth image spans next items := by
  obtain rfl : ((Run.step setup).on machine).2 = after := congrArg Prod.snd advances.2
  have same := frames.trans arrives.frames
  exact ⟨arrives.step contained receives (same ▸ List.suffix_refl _), same, isNext, left⟩

theorem Arrives.names_scalar (arrives : machine.Arrives base setup.maxDepth image spans place stack)
    (fetches : image.Fetches place (.pushRef name)) (advances : machine.Advances setup after)
    (bound : after.lookup? name = some cell) :
    after.Arrives base setup.maxDepth image spans (place + 1) (.reference cell :: stack) := by
  obtain ⟨other, found, also, reads, left, isFound⟩ :=
    Loop.reads_reference arrives.toAbove advances.going advances.1 (arrives.next ▸ fetches)
  obtain rfl := advances.same also
  obtain rfl : found = cell := Option.some.inj (isFound.symm.trans bound)
  exact arrives.advance contained receives advances reads.frames (reads.next.trans (arrives.next ▸ rfl)) (arrives.stack ▸ left)

theorem Arrives.names_array (arrives : machine.Arrives base setup.maxDepth image spans place stack)
    (fetches : image.Fetches place (.pushArray name element rank)) (advances : machine.Advances setup after)
    (bound : after.lookup? name = some cell) :
    after.Arrives base setup.maxDepth image spans (place + 1) (.reference cell :: stack) := by
  have fetched : machine.image.Fetches machine.next (.pushArray name element rank) := by
    rw [arrives.loaded, arrives.next]
    exact fetches
  have sound := arrives.toAbove.sound
  obtain ⟨frames, next, found, left, isFound⟩ := advances.leads (fun last : Machine σ => last.frames = machine.frames ∧
      last.next = machine.next + 1 ∧ ∃ cell, last.stack = .reference cell :: machine.stack ∧ last.lookup? name = some cell)
    fetched (fun world events notices last ran => by
      have started : Machine.Sound
          { machine with world, events, notices, phase := .running, next := machine.next + 1 } := { sound with }
      exact Run.on_name_array started ran)
    fun _ _ _ ⟨frames, next, cell, left, isFound⟩ => ⟨frames, next, cell, left, isFound⟩
  obtain rfl : found = cell := Option.some.inj (isFound.symm.trans bound)
  exact arrives.advance contained receives advances frames (next.trans (arrives.next ▸ rfl)) (arrives.stack ▸ left)

theorem Arrives.rename {op : Op} (arrives : machine.Arrives base setup.maxDepth image spans place items)
    (fetches : image.Fetches place op) (advances : machine.Advances setup after)
    (executes : ∀ started : Machine σ, started.stack = items → started.store = machine.store →
      (Run.execute setup op).on started = (.ok (), { started with stack })) :
    after.Arrives base setup.maxDepth image spans (place + 1) stack := by
  have fetched : machine.image.Fetches machine.next op := by
    rw [arrives.loaded, arrives.next]
    exact fetches
  obtain ⟨frames, next, left⟩ := advances.leads (fun last : Machine σ => last.frames = machine.frames ∧
      last.next = machine.next + 1 ∧ last.stack = stack) fetched
    (fun world events notices last ran => by
      have ended := executes { machine with world, events, notices, phase := .running, next := machine.next + 1 }
        arrives.stack rfl
      rw [ended] at ran
      cases ran
      exact ⟨rfl, rfl, rfl⟩)
    fun _ _ _ held => held
  exact arrives.advance contained receives advances frames (next.trans (arrives.next ▸ rfl)) left

theorem Names.arrives (names : Names setup base expr stop machine cell after)
    (arrives : machine.Arrives base setup.maxDepth image spans place stack) (refers : image.Refers stands expr place stop) :
    after.Arrives base setup.maxDepth image spans stop (.reference cell :: stack) := by
  induction names generalizing place with
  | «variable» pauses advances bound =>
    have ready := arrives.pause contained receives pauses
    cases refers with
    | scalar fetches => exact ready.names_scalar contained receives fetches advances bound
    | array fetches => exact ready.names_array contained receives fetches advances bound
  | whole pauses advances bound =>
    cases refers with
    | whole fetches => exact (arrives.pause contained receives pauses).names_array contained receives fetches advances bound
  | element pauses names bound onward isPlace frames left count advances numbers holds isSlot =>
    cases refers with
    | element fetches _ derefs =>
      have named := (arrives.pause contained receives pauses).names_array contained receives fetches names bound
      have indexed := named.onward contained receives onward frames isPlace (named.stack ▸ left)
      refine indexed.rename contained receives derefs advances fun started isStack isStore => ?_
      rw [← count]
      exact Run.on_name_element isStack numbers (isStore ▸ holds) isSlot
  | member names pauses advances holds isField ih =>
    cases refers with
    | member owner derefs =>
      have ready := (ih arrives owner).pause contained receives pauses
      exact ready.rename contained receives derefs advances fun started isStack isStore =>
        Run.on_name_member isStack (isStore ▸ holds) isField
  | grouped names ih =>
    cases refers with
    | grouped inside => exact ih arrives inside

theorem Passing.arrives {params : List Ty} {arguments : List Expr} {stops : List Nat}
    (passing : Passing setup base params arguments stops machine items after)
    (arrives : machine.Arrives base setup.maxDepth image spans place stack)
    (passes : image.Passes stands params arguments place stops) :
    after.Arrives base setup.maxDepth image spans (stops.getLastD place) (items.reverse ++ stack) := by
  induction passing generalizing place stack with
  | nil pauses => exact arrives.pause contained receives pauses
  | storage isShared names others ih =>
    cases passes with
    | storage _ refers others =>
      have named := names.arrives contained receives arrives refers
      rw [List.getLastD_cons, List.reverse_cons, List.append_assoc]
      exact ih named others
    | value isValue =>
      rw [isShared] at isValue
      cases isValue
  | value isValue onward isPlace frames left others ih =>
    cases passes with
    | storage isShared =>
      rw [isShared] at isValue
      cases isValue
    | value _ _ others =>
      have left := arrives.onward contained receives onward frames isPlace (arrives.stack ▸ left)
      rw [List.getLastD_cons, List.reverse_cons, List.append_assoc]
      exact ih left others

end Arriving

end Machine

end BasicLang
