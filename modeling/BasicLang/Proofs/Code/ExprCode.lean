import BasicLang.Device.Bench
import BasicLang.Proofs.Code.Emission
import BasicLang.Proofs.Machine.Running

set_option autoImplicit false

namespace BasicLang

namespace Emit

def Writes (ops : List Op) (emit : Emit Unit) : Prop :=
  ∀ assembly, emit.run assembly = .ok ((), ops.foldl Assembly.emit assembly)

theorem writes_unit : Writes [] (pure ()) := fun _ => rfl

theorem writes_op (operation : Op) : Writes [operation] (op operation) := fun _ => rfl

theorem writes_seq {first second : List Op} {emit : Emit Unit} {next : Unit → Emit Unit}
    (writesFirst : Writes first emit) (writesSecond : Writes second (next ())) :
    Writes (first ++ second) (emit >>= next) := by
  intro assembly
  rw [List.foldl_append, StateT.run_bind, writesFirst assembly]
  exact writesSecond _

end Emit

theorem Expr.evaluate_element (name : String) (arguments : List Expr) (info : ExprInfo) (environment : Environment) :
    (Expr.apply name arguments .element info).evaluate environment =
      (do
        let (array, environment) :=
          environment.fetch name (Ty.array (info.ty.getD .any) arguments.length).default
        array.expectArray name
        return (array, environment) : Except Fault (Value × Environment)) >>= fun (array, environment) => do
          let (indices, environment) ← Expr.evaluateAll environment arguments
          return (← array.element (← indices.mapM Value.subscript), environment) := by
  simp only [Expr.evaluate, if_true]
  cases Value.expectArray _ name <;> rfl

def UnaryOperator.op : UnaryOperator → Op
  | .negate => .negate
  | .not => .complement

namespace Run

variable {σ α β : Type} {setup : Setup σ} {machine : Machine σ}

def Computes (setup : Setup σ) (ops : List Op) (machine : Machine σ)
    (outcome : Except Fault (α × Environment)) (leaves : α → Machine σ → Prop) : Prop :=
  match outcome with
  | .error fault => ∃ stopped, (straight setup ops).on machine = (.error (.ofFault fault), stopped)
  | .ok (result, environment) => ∃ after, (straight setup ops).on machine = (.ok (), after) ∧
      machine.Extends after ∧ after.Sound ∧ after.environment = environment ∧ leaves result after

theorem computes_seq {ops more : List Op} {outcome : Except Fault (α × Environment)}
    {next : α × Environment → Except Fault (β × Environment)} {leaves : α → Machine σ → Prop}
    {final : β → Machine σ → Prop} (first : Computes setup ops machine outcome leaves)
    (rest : ∀ result after, outcome = .ok (result, after.environment) → machine.Extends after →
      after.Sound → leaves result after →
      Computes setup more after (next (result, after.environment)) final) :
    Computes setup (ops ++ more) machine (outcome >>= next) final := by
  unfold Computes
  rw [straight_append]
  cases outcome with
  | error fault =>
    obtain ⟨stopped, failed⟩ := first
    exact ⟨stopped, on_stop failed⟩
  | ok found =>
    obtain ⟨result, environment⟩ := found
    obtain ⟨after, ran, extends_, sound, rfl, left⟩ := first
    have further := rest result after rfl extends_ sound left
    unfold Computes at further
    rw [on_seq ran]
    show match next (result, after.environment) with
      | .error fault => _
      | .ok (result, environment) => _
    cases ended : next (result, after.environment) with
    | error fault =>
      rw [ended] at further
      exact further
    | ok last =>
      rw [ended] at further
      obtain ⟨finish, ranRest, extendsRest, soundRest, same, leftRest⟩ := further
      exact ⟨finish, ranRest, extends_.trans extendsRest, soundRest, same, leftRest⟩

theorem computes_map {ops : List Op} {outcome : Except Fault (α × Environment)} {change : α → β}
    {leaves : α → Machine σ → Prop} {final : β → Machine σ → Prop}
    (computes : Computes setup ops machine outcome leaves)
    (view : ∀ result after, leaves result after → final (change result) after) :
    Computes setup ops machine
      (outcome >>= fun (result, environment) => pure (change result, environment)) final := by
  cases outcome with
  | error fault => exact computes
  | ok found =>
    obtain ⟨after, ran, extends_, sound, same, left⟩ := computes
    exact ⟨after, ran, extends_, sound, same, view _ _ left⟩

theorem computes_op {operation : Op} {result : Except Fault α} {stack : α → List StackItem}
    (sound : machine.Sound)
    (ran : match result with
      | .ok value => (execute setup operation).on machine = (.ok (), { machine with stack := stack value })
      | .error fault => ∃ stopped, (execute setup operation).on machine = (.error (.ofFault fault), stopped)) :
    Computes setup [operation] machine (do return (← result, machine.environment))
      fun value after => after.stack = stack value := by
  unfold Computes
  rw [straight_one]
  cases result with
  | error fault => exact ran
  | ok value =>
    exact ⟨_, ran, (Machine.Extends.refl machine).stack _, sound.stack _, rfl, rfl⟩

def Pushed (stack : List StackItem) (value : Value) (after : Machine σ) : Prop :=
  after.stack = .value value :: stack

def PushedStorage (stack : List StackItem) (value : Value) (after : Machine σ) : Prop :=
  ∃ cell, after.stack = .reference cell :: stack ∧ cell < after.store.size ∧ after.store.read cell = value

theorem computes_constant (sound : machine.Sound) (value : Value) :
    Computes setup [.pushConst value] machine (.ok (value, machine.environment))
      (Pushed machine.stack) := by
  unfold Computes
  rw [straight_one, execute, on_push]
  exact ⟨_, rfl, (Machine.Extends.refl machine).stack _, sound.stack _, rfl, rfl⟩

theorem computes_variable (sound : machine.Sound) (name : String) :
    Computes setup [.pushValue name] machine
      (.ok (machine.environment.fetch name (machine.environment.implicitType name).default))
      (Pushed machine.stack) := by
  have reached := machine.ensure_variable_reaches sound name
  unfold Computes
  rw [straight_one, execute, on_seq (on_variable name machine), on_seq (on_read _ _), on_push]
  refine ⟨_, rfl, reached.extends_.stack _, reached.sound.stack _, reached.same, ?_⟩
  show StackItem.value _ :: _ = _
  rw [reached.read, reached.stack]
  rfl

theorem computes_storage (sound : machine.Sound) (name : String) :
    Computes setup [.pushRef name] machine
      (.ok (machine.environment.fetch name (machine.environment.implicitType name).default))
      (PushedStorage machine.stack) := by
  have reached := machine.ensure_variable_reaches sound name
  unfold Computes
  rw [straight_one, execute, on_seq (on_variable name machine), on_push_reference]
  refine ⟨_, rfl, reached.extends_.stack _, reached.sound.stack _, reached.same, _, ?_, reached.below,
    reached.read⟩
  rw [reached.stack]

theorem computes_array (sound : machine.Sound) (name : String) (element : Ty) (rank : Nat) :
    Computes setup [.pushArray name element rank] machine
      (do
        let (array, environment) := machine.environment.fetch name (Ty.array element rank).default
        array.expectArray name
        return (array, environment))
      (PushedStorage machine.stack) := by
  have found := machine.array_cell_reaches sound name element rank
  unfold Computes
  rw [straight_one, execute]
  dsimp only
  cases expected : (machine.environment.fetch name (Ty.array element rank).default).1.expectArray name with
  | error fault =>
    rw [expected] at found
    exact ⟨machine, on_stop found⟩
  | ok _ =>
    rw [expected] at found
    obtain ⟨cell, after, ran, reached⟩ := found
    rw [on_seq ran, on_push_reference]
    refine ⟨_, rfl, reached.extends_.stack _, reached.sound.stack _, reached.same, cell, ?_, reached.below,
      reached.read⟩
    rw [reached.stack]

theorem computes_binary {stack : List StackItem} {left right : Value} (sound : machine.Sound)
    (operator : BinaryOperator) (top : machine.stack = .value right :: .value left :: stack) :
    Computes setup [.binary operator] machine
      (do return (← Fault.ofArithmetic (operator.apply left right), machine.environment))
      (Pushed stack) := by
  refine computes_op sound ?_
  rw [execute, on_seq (on_pop_value top), on_seq (on_pop_value rfl)]
  cases operator.apply left right with
  | error fault => exact ⟨_, rfl⟩
  | ok value => rfl

theorem computes_unary {stack : List StackItem} {value : Value} (sound : machine.Sound)
    (operator : UnaryOperator) (top : machine.stack = .value value :: stack) :
    Computes setup [operator.op] machine
      (do return (← Fault.ofArithmetic (operator.apply value), machine.environment))
      (Pushed stack) := by
  refine computes_op sound ?_
  cases operator with
  | negate =>
    rw [UnaryOperator.op, execute, on_seq (on_pop_value top), UnaryOperator.apply]
    cases value.negate with
    | error fault => exact ⟨_, rfl⟩
    | ok value => rfl
  | not =>
    rw [UnaryOperator.op, execute, on_seq (on_pop_value top), UnaryOperator.apply]
    cases value.complement with
    | error fault => exact ⟨_, rfl⟩
    | ok value => rfl

theorem on_pop_int {stack : List StackItem} {value : Value} {number : Int}
    (isNumber : value.toInt? = some number) (top : machine.stack = .value value :: stack) :
    (popInt : Run σ Int).on machine = (.ok number, { machine with stack }) := by
  obtain ⟨double, isDouble, rounded⟩ := Option.map_eq_some_iff.mp isNumber
  have popped : (popNumber : Run σ Float).on machine = (.ok double, { machine with stack }) := by
    rw [popNumber, on_seq (on_pop_value top), isDouble]
    rfl
  rw [popInt, on_seq popped, rounded]
  rfl

theorem on_pop_ints {stack : List StackItem} (values : List Value) (behind : List Int)
    (numbers : ∀ value ∈ values, value.toInt?.isSome = true)
    (top : machine.stack = values.map .value ++ stack) :
    (popMany popInt values.length behind : Run σ (List Int)).on machine =
      (.ok ((values.filterMap Value.toInt?).reverse ++ behind), { machine with stack }) := by
  induction values generalizing machine behind with
  | nil =>
    rw [List.map_nil, List.nil_append] at top
    subst top
    rfl
  | cons value rest ih =>
    obtain ⟨number, isNumber⟩ := Option.isSome_iff_exists.mp (numbers value List.mem_cons_self)
    rw [List.map_cons, List.cons_append] at top
    rw [List.length_cons, popMany, on_seq (on_pop_int isNumber top),
      ih (number :: behind) (fun other inside => numbers other (List.mem_cons_of_mem _ inside)) rfl,
      List.filterMap_cons_some isNumber, List.reverse_cons, List.append_assoc]
    rfl

theorem subscripts_ok (values : List Value) (numbers : ∀ value ∈ values, value.toInt?.isSome = true) :
    values.mapM Value.subscript = .ok (values.filterMap Value.toInt?) := by
  induction values with
  | nil => rfl
  | cons value rest ih =>
    obtain ⟨number, isNumber⟩ := Option.isSome_iff_exists.mp (numbers value List.mem_cons_self)
    have first : value.subscript = .ok number := by rw [Value.subscript, isNumber]
    rw [List.mapM_cons, first, ih fun other inside => numbers other (List.mem_cons_of_mem _ inside),
      List.filterMap_cons_some isNumber]
    rfl

theorem part_found {store : Store} {cell part : Cell} {ty : Ty} (definite : ty.isDefinite = true)
    (holds : ty.Holds (store.readPart cell part)) : store.readPart cell part = store.read part := by
  unfold Store.readPart at *
  split
  · rfl
  · next before =>
    rw [if_neg before] at holds
    exact absurd rfl (Ty.not_null definite holds)

theorem on_push_cell (cell : Cell) (byRef : Bool) :
    (pushCell cell byRef : Run σ Unit).on machine =
      (.ok (), { machine with
        stack := (if byRef then .reference cell else .value (machine.store.read cell)) :: machine.stack }) := by
  unfold pushCell
  cases byRef <;> rfl

def Found (byRef : Bool) (stack : List StackItem) (value : Value) (after : Machine σ) : Prop :=
  if byRef then PushedStorage stack value after else Pushed stack value after

theorem found_cell {stack : List StackItem} {cell : Cell} (byRef : Bool) (below : cell < machine.store.size) :
    Found byRef stack (machine.store.read cell) { machine with
      stack := (if byRef then .reference cell else .value (machine.store.read cell)) :: stack } := by
  unfold Found
  cases byRef with
  | true => exact ⟨cell, rfl, below, rfl⟩
  | false => exact rfl

theorem array_stored {store : Store} {cell : Cell} {array : Value} {element : Ty} {rank : Nat}
    (closed : store.Closed) (definite : element.isDefinite = true)
    (holds : (Ty.array element rank).Holds array) (read : store.read cell = array) :
    ∃ held grid, store.content cell = .array held grid ∧ ∀ indices,
      match grid.get indices with
      | .error fault => array.element indices = .error (.value (.ofGrid fault))
      | .ok slot => slot < store.size ∧ array.element indices = .ok (store.read slot) := by
  rw [Store.read_eq] at read
  cases content : store.content cell with
  | array held grid =>
    rw [content, Store.valueOf] at read
    subst read
    refine ⟨held, grid, rfl, fun indices => ?_⟩
    have slots (place : Nat) : (grid.slots.toList.map (store.readPart cell)).toArray[place]? =
        grid.slots[place]?.map (store.readPart cell) := by simp
    simp only [Value.element, Grid.get_eq, slots]
    cases Grid.offset grid.bounds indices with
    | error fault => rfl
    | ok place =>
      cases stored : grid.slots[place]? with
      | none => simp only [stored, Option.map_none]
      | some slot =>
        have inside : slot ∈ grid.slots.toList := Array.mem_toList_iff.mpr (Array.mem_of_getElem? stored)
        have slotHolds := holds.2.2 _ (List.mem_map_of_mem inside)
        simp only [stored, Option.map_some]
        refine ⟨closed.parts cell slot (by rwa [content]), ?_⟩
        rw [part_found (holds.1 ▸ definite) slotHolds]
  | plain value =>
    have simple := closed.plain cell
    rw [content] at read simple
    have same : value = array := read
    rw [← same] at holds
    cases value <;> first | exact holds.elim | cases simple
  | record title members fields =>
    rw [content] at read
    rw [← read] at holds
    exact holds.elim

theorem computes_element {stack : List StackItem} {cell : Cell} {indices : List Value} {array : Value}
    {element : Ty} {rank : Nat} (sound : machine.Sound) (byRef : Bool) (definite : element.isDefinite = true)
    (holds : (Ty.array element rank).Holds array) (read : machine.store.read cell = array)
    (numbers : ∀ value ∈ indices, value.toInt?.isSome = true)
    (top : machine.stack = indices.reverse.map .value ++ .reference cell :: stack) :
    Computes setup [.arrayDeref indices.length byRef] machine
      (do return (← array.element (← indices.mapM Value.subscript), machine.environment))
      (Found byRef stack) := by
  have popped : (popInts indices.length : Run σ (List Int)).on machine =
      (.ok (indices.filterMap Value.toInt?), { machine with stack := .reference cell :: stack }) := by
    have reversed : ∀ value ∈ indices.reverse, value.toInt?.isSome = true := by simpa using numbers
    have found := on_pop_ints indices.reverse [] reversed top
    rw [List.length_reverse, List.filterMap_reverse, List.reverse_reverse, List.append_nil] at found
    exact found
  have outcome : (do return (← array.element (← indices.mapM Value.subscript), machine.environment)) =
      (do return (← array.element (indices.filterMap Value.toInt?), machine.environment)) := by
    rw [subscripts_ok indices numbers]
    rfl
  obtain ⟨held, grid, content, slots⟩ := array_stored sound.closed definite holds read
  have located := slots (indices.filterMap Value.toInt?)
  have dereferenced : (arrayDeref indices.length byRef : Run σ Unit).on machine =
      (do pushCell (← ofGrid (grid.get (indices.filterMap Value.toInt?))) byRef : Run σ Unit).on
        { machine with stack } := by
    rw [arrayDeref, on_seq popped, on_seq (on_pop_reference rfl), on_seq (on_get _)]
    simp only [content]
  rw [outcome]
  unfold Computes
  rw [straight_one, execute, dereferenced]
  cases gives : grid.get (indices.filterMap Value.toInt?) with
  | error fault =>
    rw [gives] at located
    rw [located]
    exact ⟨_, rfl⟩
  | ok slot =>
    rw [gives] at located
    rw [located.2]
    exact ⟨_, on_push_cell slot byRef, (Machine.Extends.refl machine).stack _, sound.stack _, rfl,
      found_cell byRef located.1⟩

theorem record_stored {store : Store} {cell : Cell} {record : Value} {title name : String}
    {members : Members} {ty : Ty} (closed : store.Closed) (definite : ty.isDefinite = true)
    (holds : (Ty.record title members).Holds record) (typed : members.type? name = some ty)
    (read : store.read cell = record) :
    ∃ other held fields field, store.content cell = .record other held fields ∧
      (held.index? name).bind (fields[·]?) = some field ∧ field < store.size ∧
      record.member name = .ok (store.read field) := by
  obtain ⟨value, isMember, valueHolds⟩ := Value.member_typed holds typed
  rw [Store.read_eq] at read
  cases content : store.content cell with
  | record other held fields =>
    rw [content, Store.valueOf] at read
    subst read
    rw [Value.member] at isMember
    cases place : held.index? name with
    | none =>
      simp only [place, Option.bind_none] at isMember
      cases isMember
    | some index =>
      simp only [place, Option.bind_some, List.getElem?_map, Array.getElem?_toList] at isMember
      cases stored : fields[index]? with
      | none =>
        simp only [stored, Option.map_none] at isMember
        cases isMember
      | some field =>
        simp only [stored, Option.map_some] at isMember
        have inside : field ∈ fields.toList := Array.mem_toList_iff.mpr (Array.mem_of_getElem? stored)
        have same := Except.ok.inj isMember
        rw [← same] at valueHolds
        refine ⟨other, held, fields, field, rfl, by rw [place]; exact stored,
          closed.parts cell field (by rwa [content]), ?_⟩
        simp only [Value.member, place, Option.bind_some, List.getElem?_map, Array.getElem?_toList, stored,
          Option.map_some, part_found definite valueHolds]
  | plain value =>
    have simple := closed.plain cell
    rw [content] at read simple
    have same : value = record := read
    rw [← same] at holds
    cases value <;> first | exact holds.elim | cases simple
  | array element grid =>
    rw [content] at read
    rw [← read] at holds
    exact holds.elim

theorem computes_member {stack : List StackItem} {cell : Cell} {record : Value} {title name : String}
    {members : Members} {ty : Ty} (sound : machine.Sound) (byRef : Bool) (definite : ty.isDefinite = true)
    (holds : (Ty.record title members).Holds record) (typed : members.type? name = some ty)
    (read : machine.store.read cell = record) (top : machine.stack = .reference cell :: stack) :
    Computes setup [.memberDeref name byRef] machine
      (do return (← record.member name, machine.environment)) (Found byRef stack) := by
  obtain ⟨other, held, fields, field, content, located, below, isMember⟩ :=
    record_stored sound.closed definite holds typed read
  rw [isMember]
  unfold Computes
  have dereferenced : (memberDeref name byRef : Run σ Unit).on machine =
      (pushCell field byRef : Run σ Unit).on { machine with stack } := by
    rw [memberDeref, on_seq (on_pop top)]
    dsimp only
    rw [on_seq (on_get _)]
    simp only [content, located]
  rw [straight_one, execute, dereferenced]
  exact ⟨_, on_push_cell field byRef, (Machine.Extends.refl machine).stack _, sound.stack _, rfl,
    found_cell byRef below⟩

theorem computes_member_value {stack : List StackItem} {record : Value} {name : String}
    (sound : machine.Sound) (top : machine.stack = .value record :: stack) :
    Computes setup [.memberDeref name false] machine
      (do return (← record.member name, machine.environment)) (Pushed stack) := by
  refine computes_op sound ?_
  rw [execute, memberDeref, on_seq (on_pop top)]
  cases record with
  | record title members fields =>
    simp only [Value.member]
    cases (members.index? name).bind (fields[·]?) with
    | none => exact ⟨_, rfl⟩
    | some field => exact rfl
  | _ => exact ⟨_, rfl⟩

section Code

variable {symbols table : SymbolTable} {registry : Registry} (context : EmitContext)

def Codes (setup : Setup σ) (symbols : SymbolTable) (emit : Emit Unit)
    (outcome : Environment → Except Fault (α × Environment))
    (leaves : List StackItem → α → Machine σ → Prop) : Prop :=
  ∃ ops, Emit.Writes ops emit ∧ ∀ machine : Machine σ, machine.Sound → machine.environment.Holds symbols →
    Computes setup ops machine (outcome machine.environment) (leaves machine.stack)

def PushedAll (stack : List StackItem) (values : List Value) (after : Machine σ) : Prop :=
  after.stack = values.reverse.map .value ++ stack

theorem named_storage_plain {ty : Ty} (plain : ty.isArray = false) (name : String) (byRef : Bool) :
    Emit.namedStorage name ty byRef = Emit.op (if byRef then .pushRef name else .pushValue name) := by
  cases ty <;> first | rfl | cases plain

theorem definite_not_array {ty : Ty} (definite : ty.isDefinite = true) : ty.isArray = false := by
  cases ty <;> first | rfl | cases definite

theorem all_static {expr : Expr} {exprs : List Expr} (inside : expr ∈ exprs)
    (static : Expr.AllStatic exprs) : expr.Static := by
  induction exprs with
  | nil => cases inside
  | cons first rest ih =>
    rcases List.mem_cons.mp inside with rfl | later
    · exact static.1
    · exact ih later static.2

theorem subscripts_numbers {arguments : List Expr} {values : List Value}
    (static : Expr.AllStatic arguments) (accepted : Expr.AllAccepted table registry arguments)
    (numeric : ∀ argument ∈ arguments, Check.isNumber argument.ty = true)
    (typed : ∀ value ∈ values, ∃ expr ∈ arguments, expr.ty.Holds value) :
    ∀ value ∈ values, value.toInt?.isSome = true := by
  intro value inside
  obtain ⟨expr, isArgument, holds⟩ := typed value inside
  have isStatic := all_static isArgument static
  have definite := Expr.static_definite isStatic ((Expr.all_accepted_iff _ _ _).mp accepted expr isArgument)
  have isNumeric : value.ty.isNumeric = true := by
    have wanted := numeric expr isArgument
    rw [Ty.holds_ty definite holds]
    rw [Check.isNumber, Bool.or_eq_true] at wanted
    rcases wanted with found | isAny
    · exact found
    · rw [eq_of_beq isAny] at definite
      cases definite
  obtain ⟨number, isNumber⟩ := Value.numeric_double isNumeric
  rw [Value.toInt?, isNumber]
  rfl

def elementCode (context : EmitContext) (byRef : Bool) (name : String) (arguments : List Expr)
    (info : ExprInfo) : Emit Unit := do
  Emit.op (.pushArray name (info.ty.getD .any) arguments.length)
  Emit.values context arguments
  Emit.op (.arrayDeref arguments.length byRef)

variable {context}

theorem element_codes (byRef : Bool) {name : String} {arguments : List Expr} {info : ExprInfo}
    (static : Expr.AllStatic arguments) (definite : (info.ty.getD .any).isDefinite = true)
    (accepted : Expr.AllAccepted table registry arguments) (bound : Expr.AllBound symbols arguments)
    (declared : (∀ argument ∈ arguments, Check.isNumber argument.ty = true) ∧
      ∃ entry rank, symbols.lookup? name = some entry ∧ entry.ty = .array (info.ty.getD .any) rank ∧
        (rank = 0 ∨ rank = arguments.length))
    (codes : Codes setup symbols (Emit.values context arguments) (Expr.evaluateAll · arguments) PushedAll) :
    Codes setup symbols (elementCode context byRef name arguments info)
      ((Expr.apply name arguments .element info).evaluate ·) (Found byRef) := by
  obtain ⟨ops, writes, code⟩ := codes
  obtain ⟨numeric, entry, rank, lookup, typed, suits⟩ := declared
  refine ⟨[.pushArray name (info.ty.getD .any) arguments.length] ++
    (ops ++ [.arrayDeref arguments.length byRef]), ?_, fun machine sound holds => ?_⟩
  · exact Emit.writes_seq (Emit.writes_op _) (Emit.writes_seq writes (Emit.writes_op _))
  · obtain ⟨arrayHolds, stillHolds⟩ := Environment.fetch_typed holds lookup
      (typed ▸ Ty.array_default_holds suits)
    rw [typed] at arrayHolds
    dsimp only
    rw [Expr.evaluate_element]
    refine computes_seq (computes_array sound name _ _) fun array between recalled _ soundBetween found => ?_
    obtain ⟨cell, top, below, read⟩ := found
    obtain ⟨-, -, finished⟩ := Fault.seq_ok recalled
    have same : machine.environment.fetch name (Ty.array (info.ty.getD .any) arguments.length).default =
        (array, between.environment) := Except.ok.inj finished
    rw [same] at arrayHolds stillHolds
    refine computes_seq (code between soundBetween stillHolds) fun values last evaluated extends_ soundLast topLast => ?_
    have counted := Expr.evaluate_all_length evaluated
    have valuesTyped := (Expr.evaluate_all_typed arguments static accepted bound _ stillHolds evaluated).1
    rw [← counted]
    refine computes_element soundLast byRef definite arrayHolds ?_
      (subscripts_numbers static accepted numeric valuesTyped) (topLast.trans (by rw [top]))
    rw [extends_.store.read soundBetween.closed below, read]

theorem member_codes (byRef : Bool) {object : Expr} {title name : String} {members : Members}
    {info : ExprInfo} (static : object.Static) (accepted : object.Accepted table registry)
    (bound : object.Bound symbols) (definite : (info.ty.getD .any).isDefinite = true)
    (isRecord : object.ty = .record title members)
    (typed : members.type? name = some (info.ty.getD .any))
    (codes : Codes setup symbols (Emit.reference context object) (object.evaluate ·) PushedStorage) :
    Codes setup symbols (do Emit.reference context object; Emit.op (.memberDeref name byRef))
      ((Expr.member object name info).evaluate ·) (Found byRef) := by
  obtain ⟨ops, writes, code⟩ := codes
  refine ⟨ops ++ [.memberDeref name byRef], Emit.writes_seq writes (Emit.writes_op _),
    fun machine sound holds => ?_⟩
  simp only [Expr.evaluate]
  refine computes_seq (code machine sound holds) fun record after evaluated _ sound found => ?_
  obtain ⟨cell, top, -, read⟩ := found
  have recordHolds := (object.evaluate_typed static accepted bound _ holds evaluated).1
  rw [isRecord] at recordHolds
  exact computes_member sound byRef definite recordHolds typed read top

mutual

theorem value_codes (expr : Expr) (static : expr.Static) (accepted : expr.Accepted table registry)
    (bound : expr.Bound symbols) :
    Codes setup symbols (Emit.value context expr) (expr.evaluate ·) Pushed := by
  cases expr with
  | literal literal info =>
    refine ⟨_, Emit.writes_op _, fun machine sound _ => ?_⟩
    simp only [Expr.evaluate]
    exact computes_constant sound literal.value
  | «variable» name info =>
    refine ⟨[.pushValue name], ?_, fun machine sound _ => ?_⟩
    · rw [Emit.value, named_storage_plain (definite_not_array static)]
      exact Emit.writes_op _
    · simp only [Expr.evaluate]
      exact computes_variable sound name
  | apply name arguments callee info =>
    obtain ⟨rfl, nonempty, argumentsStatic, definite⟩ := static
    have written : Emit.value context (.apply name arguments .element info) =
        elementCode context false name arguments info := by
      cases arguments with
      | nil => exact absurd rfl nonempty
      | cons first rest => rfl
    rw [written]
    exact element_codes false argumentsStatic definite accepted.2.2.1 bound.1 (bound.2 rfl nonempty)
      (values_codes arguments argumentsStatic accepted.2.2.1 bound.1)
  | member object name info =>
    obtain ⟨title, members, isRecord, typed⟩ := Ty.record_of_member
      (Expr.static_definite static.1 accepted.1) (accepted.2.2.trans (ExprInfo.typed accepted.2.1))
    rw [Emit.value]
    split
    · exact member_codes false static.1 accepted.1 bound static.2 isRecord typed
        (reference_codes object static.1 accepted.1 bound ⟨title, members, isRecord⟩)
    · obtain ⟨ops, writes, code⟩ := value_codes object static.1 accepted.1 bound
      refine ⟨ops ++ [.memberDeref name false], Emit.writes_seq writes (Emit.writes_op _),
        fun machine sound holds => ?_⟩
      simp only [Expr.evaluate]
      exact computes_seq (code machine sound holds) fun record after _ _ sound top =>
        computes_member_value sound top
  | binary operator left right info =>
    obtain ⟨leftOps, writesLeft, leftCode⟩ := value_codes left static.1 accepted.1 bound.1
    obtain ⟨rightOps, writesRight, rightCode⟩ := value_codes right static.2.1 accepted.2.1 bound.2
    refine ⟨leftOps ++ (rightOps ++ [.binary operator]), ?_, fun machine sound holds => ?_⟩
    · exact Emit.writes_seq writesLeft (Emit.writes_seq writesRight (Emit.writes_op _))
    · simp only [Expr.evaluate]
      refine computes_seq (leftCode machine sound holds) fun leftValue between evaluatedLeft _ sound top => ?_
      have holdsBetween := (left.evaluate_typed static.1 accepted.1 bound.1 _ holds evaluatedLeft).2
      refine computes_seq (rightCode between sound holdsBetween) fun rightValue last _ _ sound topRight => ?_
      exact computes_binary sound operator (topRight.trans (by rw [top]))
  | unary operator operand info =>
    obtain ⟨ops, writes, code⟩ := value_codes operand static.1 accepted.1 bound
    refine ⟨ops ++ [operator.op], ?_, fun machine sound holds => ?_⟩
    · refine Emit.writes_seq writes ?_
      cases operator <;> exact Emit.writes_op _
    · simp only [Expr.evaluate]
      exact computes_seq (code machine sound holds) fun _ _ _ _ sound top => computes_unary sound operator top
  | grouped inner info =>
    obtain ⟨ops, writes, code⟩ := value_codes inner static.1 accepted.1 bound
    refine ⟨ops, writes, fun machine sound holds => ?_⟩
    simp only [Expr.evaluate]
    exact code machine sound holds

theorem reference_codes (expr : Expr) (static : expr.Static) (accepted : expr.Accepted table registry)
    (bound : expr.Bound symbols) (isRecord : ∃ title members, expr.ty = .record title members) :
    Codes setup symbols (Emit.reference context expr) (expr.evaluate ·) PushedStorage := by
  cases expr with
  | literal literal info =>
    obtain ⟨title, members, same⟩ := isRecord
    have typed : (Expr.literal literal info).ty = Check.literalType literal := by
      rw [Expr.ty, Expr.info, accepted.2]
      rfl
    rw [typed] at same
    cases literal <;> cases same
  | «variable» name info =>
    refine ⟨[.pushRef name], ?_, fun machine sound _ => ?_⟩
    · rw [Emit.reference, named_storage_plain (definite_not_array static)]
      exact Emit.writes_op _
    · simp only [Expr.evaluate]
      exact computes_storage sound name
  | apply name arguments callee info =>
    obtain ⟨rfl, nonempty, argumentsStatic, definite⟩ := static
    have written : Emit.reference context (.apply name arguments .element info) =
        elementCode context true name arguments info := by
      cases arguments with
      | nil => exact absurd rfl nonempty
      | cons first rest => rfl
    rw [written]
    exact element_codes true argumentsStatic definite accepted.2.2.1 bound.1 (bound.2 rfl nonempty)
      (values_codes arguments argumentsStatic accepted.2.2.1 bound.1)
  | member object name info =>
    obtain ⟨title, members, objectRecord, typed⟩ := Ty.record_of_member
      (Expr.static_definite static.1 accepted.1) (accepted.2.2.trans (ExprInfo.typed accepted.2.1))
    exact member_codes true static.1 accepted.1 bound static.2 objectRecord typed
      (reference_codes object static.1 accepted.1 bound ⟨title, members, objectRecord⟩)
  | binary operator left right info =>
    have scalar := BinaryOperator.result_scalar
      (Ty.definite_static (Expr.static_definite static.1 accepted.1))
      (Ty.definite_static (Expr.static_definite static.2.1 accepted.2.1))
      (accepted.2.2.2.trans (ExprInfo.typed accepted.2.2.1))
    exact absurd isRecord (Ty.scalar_not_record scalar)
  | unary operator operand info =>
    have numeric := UnaryOperator.result_numeric
      (Ty.definite_static (Expr.static_definite static.1 accepted.1))
      (accepted.2.2.trans (ExprInfo.typed accepted.2.1))
    exact absurd isRecord (Ty.scalar_not_record (.inl numeric))
  | grouped inner info =>
    have innerRecord : ∃ title members, inner.ty = .record title members := by
      obtain ⟨title, members, same⟩ := isRecord
      refine ⟨title, members, ?_⟩
      have outer : (Expr.grouped inner info).ty = info.ty.getD .any := rfl
      rw [← same, outer, accepted.2]
      rfl
    obtain ⟨ops, writes, code⟩ := reference_codes inner static.1 accepted.1 bound innerRecord
    refine ⟨ops, writes, fun machine sound holds => ?_⟩
    simp only [Expr.evaluate]
    exact code machine sound holds

theorem values_codes (exprs : List Expr) (static : Expr.AllStatic exprs)
    (accepted : Expr.AllAccepted table registry exprs) (bound : Expr.AllBound symbols exprs) :
    Codes setup symbols (Emit.values context exprs) (Expr.evaluateAll · exprs) PushedAll := by
  cases exprs with
  | nil =>
    refine ⟨[], Emit.writes_unit, fun machine sound _ => ?_⟩
    simp only [Expr.evaluateAll]
    exact ⟨machine, rfl, .refl machine, sound, rfl, rfl⟩
  | cons first rest =>
    obtain ⟨ops, writes, code⟩ := value_codes first static.1 accepted.1 bound.1
    obtain ⟨more, writesRest, codeRest⟩ := values_codes rest static.2 accepted.2 bound.2
    refine ⟨ops ++ more, Emit.writes_seq writes writesRest, fun machine sound holds => ?_⟩
    simp only [Expr.evaluateAll]
    refine computes_seq (code machine sound holds) fun value between evaluated _ sound top => ?_
    have holdsBetween := (first.evaluate_typed static.1 accepted.1 bound.1 _ holds evaluated).2
    refine computes_map (codeRest between sound holdsBetween) fun values after topRest => ?_
    rw [PushedAll, topRest, top]
    simp

end

end Code

end Run

/-- The code of a checked expression, on a machine whose variables hold values of their types, stops
with the fault of its evaluation, or pushes its value, which is of the type that checking gave it. The
rest of the stack, the frames and the variables that were there stay as they are. An element of an array that is not
there makes the array, which is said of arrays of 19 dimensions and more too, though their slots are beyond 64 bits. -/
theorem expression_code_correct {σ : Type} (setup : Setup σ) (checking : CheckContext)
    (source expr : Expr) (before after : CheckState) (wellFormed : source.WellFormed)
    (checked : (Check.expr checking source).run before = (expr, after))
    (quiet : after.diagnostics = before.diagnostics) (static : expr.Static) (context : EmitContext)
    (machine : Machine σ) (sound : machine.Sound) (holds : machine.environment.Holds after.symbols) :
    ∃ ops, (∀ assembly, (Emit.value context expr).run assembly =
        .ok ((), ops.foldl Assembly.emit assembly)) ∧
      match expr.evaluate machine.environment with
      | .error fault => ∃ stopped,
          (Run.straight setup ops).on machine = (.error (.ofFault fault), stopped)
      | .ok (value, environment) => ∃ later, (Run.straight setup ops).on machine = (.ok (), later) ∧
          later.stack = .value value :: machine.stack ∧ value.ty = expr.ty ∧
          later.frames = machine.frames ∧ later.environment = environment ∧
          ∀ scope name cell, (machine.scopes.getD scope []).get? name = some cell →
            (later.scopes.getD scope []).get? name = some cell ∧
              later.store.read cell = machine.store.read cell := by
  have accepted : expr.Accepted before.symbols checking.registry := by
    have ensures : Check.Ensures before.symbols (Expr.Accepted before.symbols checking.registry)
        (Check.expr checking source) := Check.ensures_expr checking source wellFormed
    have found := (ensures before).2
    rw [checked] at found
    exact (found quiet (.refl _)).2
  have bound : expr.Bound after.symbols := by
    have binds : Check.Binds after.symbols (Expr.Bound after.symbols) (Check.expr checking source) :=
      Check.binds_expr checking source
    have found := (binds before).2
    rw [checked] at found
    exact (found quiet).2 (.refl _)
  have codes : Run.Codes setup after.symbols (Emit.value context expr) (expr.evaluate ·) Run.Pushed :=
    Run.value_codes expr static accepted bound
  -- What was said of the code for every sound machine is read at this one, by the outcome of the interpreter.
  obtain ⟨ops, writes, code⟩ := codes
  refine ⟨ops, writes, ?_⟩
  have computes := code machine sound holds
  dsimp only at computes
  unfold Run.Computes at computes
  cases evaluated : expr.evaluate machine.environment with
  | error fault =>
    rw [evaluated] at computes
    exact computes
  | ok found =>
    obtain ⟨value, environment⟩ := found
    rw [evaluated] at computes
    obtain ⟨later, ran, extends_, -, same, top⟩ := computes
    have typed := (expr.evaluate_typed static accepted bound _ holds evaluated).1
    refine ⟨later, ran, top, Ty.holds_ty (Expr.static_definite static accepted) typed, ?_, same, ?_⟩
    · rw [extends_.rest]
    · exact fun scope name cell found => ⟨extends_.kept scope name cell found,
        extends_.store.read sound.closed (sound.cells scope name cell found)⟩

def sampleSum : Expr :=
  .binary .add (.variable "X%" ⟨⟨1, 1⟩, none⟩)
    (.apply "A%" [.literal (.integer 1) ⟨⟨1, 9⟩, none⟩] .unresolved ⟨⟨1, 6⟩, none⟩) ⟨⟨1, 4⟩, none⟩

def sampleContext : CheckContext :=
  { registry := .standard, routine := mainName, kind := .main, loops := [], depth := 0 }

theorem sum_code_correct : ∃ expr after ops,
    (Check.expr sampleContext sampleSum).run ⟨.empty, []⟩ = (expr, after) ∧ after.diagnostics = [] ∧
      expr.Static ∧
      (∀ assembly, (Emit.value ⟨.empty, .standard, [], none⟩ expr).run assembly =
        .ok ((), ops.foldl Assembly.emit assembly)) ∧
      match expr.evaluate (Machine.create Bench.empty).environment with
      | .error fault => ∃ stopped, (Run.straight (.ofDevices Bench.bare .standard) ops).on
          (Machine.create Bench.empty) = (.error (.ofFault fault), stopped)
      | .ok (value, _) => ∃ later, (Run.straight (.ofDevices Bench.bare .standard) ops).on
          (Machine.create Bench.empty) = (.ok (), later) ∧ later.stack = [.value value] ∧
            value.ty = .integer := by
  have wellFormed : sampleSum.WellFormed :=
    ⟨⟨'X', ['%'], by decide, by decide⟩, ⟨'A', ['%'], by decide, by decide⟩, ⟨by decide, by decide⟩, trivial⟩
  have static : ((Check.expr sampleContext sampleSum).run ⟨.empty, []⟩).1.Static := by decide +kernel
  have quiet : ((Check.expr sampleContext sampleSum).run ⟨.empty, []⟩).2.diagnostics = [] := by
    decide +kernel
  have holds : (Machine.create Bench.empty).environment.Holds
      ((Check.expr sampleContext sampleSum).run ⟨.empty, []⟩).2.symbols :=
    Environment.holds_of_none (fun _ => rfl) (by decide +kernel)
  have integer : ((Check.expr sampleContext sampleSum).run ⟨.empty, []⟩).1.ty = .integer := by
    decide +kernel
  obtain ⟨ops, writes, computes⟩ := expression_code_correct (.ofDevices Bench.bare .standard)
    sampleContext sampleSum _ ⟨.empty, []⟩ _ wellFormed rfl quiet static ⟨.empty, .standard, [], none⟩
    (Machine.create Bench.empty) (Machine.create_sound _) holds
  refine ⟨_, _, ops, rfl, quiet, static, writes, ?_⟩
  split
  · next fault failed =>
    rw [failed] at computes
    exact computes
  · next value environment evaluated =>
    rw [evaluated] at computes
    obtain ⟨later, ran, top, typed, -⟩ := computes
    exact ⟨later, ran, top, typed.trans integer⟩

end BasicLang
