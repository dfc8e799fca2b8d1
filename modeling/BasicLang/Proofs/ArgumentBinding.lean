import BasicLang.Proofs.Machine.Binding
import BasicLang.Proofs.Machine.Passing

set_option autoImplicit false

namespace BasicLang

namespace Call

def parcels (call : Call) (items : List StackItem) : List Parcel :=
  (call.params.zip items).map fun (param, item) => ⟨param.1, param.2, item⟩

structure Delivers (call : Call) (items : List StackItem) : Prop where
  count : items.length = call.params.length
  shared : ∀ (index : Nat) (argument : Expr) (item : StackItem), call.arguments[index]? = some argument → items[index]? = some item →
    (argument.isShared call.types[index]? = true ↔ ∃ cell, item = .reference cell)

section Parcels

variable {call : Call} {items : List StackItem} (count : items.length = call.params.length)
include count

theorem parcels_items : (call.parcels items).map Parcel.item = items := by
  rw [parcels, List.map_map]
  exact List.map_snd_zip (Nat.le_of_eq count)

theorem parcels_names : (call.parcels items).map Parcel.name = call.params.map Prod.fst := by
  calc
    (call.parcels items).map Parcel.name = ((call.params.zip items).map Prod.fst).map Prod.fst := by
      rw [parcels, List.map_map, List.map_map]
      rfl
    _ = call.params.map Prod.fst := by rw [List.map_fst_zip (Nat.le_of_eq count.symm)]

theorem parcels_ops : (call.parcels items).map Parcel.op = call.params.map fun (name, ty) => .popParam name ty := by
  calc
    (call.parcels items).map Parcel.op =
        ((call.params.zip items).map Prod.fst).map fun (name, ty) => Op.popParam name ty := by
      rw [parcels, List.map_map, List.map_map]
      rfl
    _ = call.params.map fun (name, ty) => .popParam name ty := by rw [List.map_fst_zip (Nat.le_of_eq count.symm)]

theorem parcels_length : (call.parcels items).length = call.params.length := by
  rw [← List.length_map Parcel.item, parcels_items count, count]

end Parcels

end Call

namespace Machine

variable {σ : Type} {setup : Setup σ} {image : Image} {symbols : SymbolTable} {spans : List Span} {stands : Stand}
  {base : List Frame} {stack items : List StackItem} {call : Call} {machine after : Machine σ}

theorem Passing.delivered {params : List Ty} {arguments : List Expr} {stops : List Nat}
    (passing : Passing setup base params arguments stops machine items after) : items.length = arguments.length ∧
      ∀ (index : Nat) argument item, arguments[index]? = some argument → items[index]? = some item →
        (argument.isShared params[index]? = true ↔ ∃ cell, item = .reference cell) := by
  induction passing with
  | nil =>
    refine ⟨rfl, fun index argument item found => ?_⟩
    cases found
  | @storage params _ _ _ _ _ _ _ cell _ isShared _ _ ih =>
    refine ⟨congrArg Nat.succ ih.1, fun index argument item found passed => ?_⟩
    cases index with
    | zero =>
      cases found
      cases passed
      rw [← List.head?_eq_getElem?]
      exact iff_of_true isShared ⟨cell, rfl⟩
    | succ index =>
      rw [← List.getElem?_tail]
      exact ih.2 index argument item found passed
  | @value params _ _ _ _ _ _ _ _ _ isValue _ _ _ _ _ ih =>
    refine ⟨congrArg Nat.succ ih.1, fun index argument item found passed => ?_⟩
    cases index with
    | zero =>
      cases found
      cases passed
      rw [← List.head?_eq_getElem?, isValue]
      exact iff_of_false Bool.false_ne_true nofun
    | succ index =>
      rw [← List.getElem?_tail]
      exact ih.2 index argument item found passed

/-- The call can be entered: there is room for its frame, and what is passed can be converted. -/
def Admits (setup : Setup σ) (call : Call) (items : List StackItem) (machine : Machine σ) : Prop :=
  machine.frames.length < setup.maxDepth ∧ ∀ parcel ∈ call.parcels items, parcel.Fits

/-- The procedure has its parameters, in a new scope, and the stack is what it was before the arguments. -/
structure Bound (origin : Machine σ) (call : Call) (stack items : List StackItem) (table : Table Cell) (after : Machine σ) :
    Prop where
  next : after.next = call.callee.first + call.params.length
  frames : after.frames = ⟨.call, origin.next + 1, origin.scopes.size⟩ :: origin.frames
  scopes : after.scopes = origin.scopes.push table
  stack : after.stack = stack
  -- What the caller has stored stays as it is.
  store : origin.store.Extends after.store
  params : ∀ (index : Nat) (parcel : Parcel), call.params[index]? = some (parcel.name, parcel.ty) →
    items[index]? = some parcel.item → ∃ cell, table.get? parcel.name = some cell ∧ parcel.Held origin.store after.store cell
  -- Nothing else is in the scope, and no two names have one new variable.
  names : ∀ name, (∃ cell, table.get? name = some cell) ↔ name ∈ call.params.map Prod.fst
  alone : ∀ name other cell, origin.store.size ≤ cell → table.get? name = some cell → table.get? other = some cell →
    name = other

end Machine

section Calling

variable {σ : Type} {setup : Setup σ} {image : Image} {symbols : SymbolTable} {spans : List Span} {stands : Stand}
  {base : List Frame} {stack items : List StackItem} {call : Call} {machine after : Machine σ}

theorem Image.Calls.inside (contained : image.Contained spans) (calls : image.Calls stands symbols spans call) {count : Nat}
    (most : count ≤ call.params.length) : call.callee.Has (call.callee.first + count) := by
  induction count with
  | zero => exact ⟨Nat.le_refl _, (contained.filled _ calls.isCallee).1⟩
  | succ count ih =>
    have below : count < (call.params.reverse.map fun (name, ty) => Op.popParam name ty).length := by
      rw [List.length_map, List.length_reverse]
      exact most
    obtain ⟨locus, found⟩ := calls.binds count _ (List.getElem?_eq_getElem below)
    refine contained.next_inside calls.isCallee (ih (Nat.le_of_succ_le most)) found ?_
    rw [List.getElem_map]
    rfl

variable (contained : image.Contained spans) (calls : image.Calls stands symbols spans call)
  (arrives : machine.Arrives base setup.maxDepth image spans call.goes (items.reverse ++ stack))
  (count : items.length = call.params.length)
include contained calls arrives count

theorem Image.Calls.enters (goes : machine.phase = .idle ∨ machine.phase = .running)
    (calm : (Run.ready setup machine).frames = machine.frames) (room : machine.frames.length < setup.maxDepth) :
    ∃ after, machine.Advances setup after ∧
      Machine.Binding machine call.callee.first stack [] (call.parcels items).reverse [] after := by
  have last := calls.inside contained (Nat.le_refl _)
  have below := (contained.filled _ calls.isCallee).2
  refine Machine.Binding.of_call image arrives.loaded goes (arrives.next ▸ calls.calls) ?_
    arrives.toAbove.sound.closed ?_ ?_ ?_ (fun parcel inside cell passed => ?_) calm room
  · rw [List.map_reverse, Call.parcels_items count]
    exact arrives.stack
  · rw [List.map_reverse, Call.parcels_ops count, ← List.map_reverse]
    exact calls.binds
  · rw [List.length_reverse, Call.parcels_length count]
    exact Nat.lt_of_lt_of_le last.2 below
  · rw [List.map_reverse, List.nodup_reverse, Call.parcels_names count]
    exact calls.distinct
  · have isItem : parcel.item ∈ items := by
      rw [← Call.parcels_items count]
      exact List.mem_map_of_mem (List.mem_reverse.mp inside)
    refine (arrives.framed.rooted.keeps.stack cell ?_).1
    rw [arrives.stack, ← passed]
    exact List.mem_append_left _ (List.mem_reverse.mpr isItem)

omit contained calls arrives in
theorem Machine.Binding.bound {table : Table Cell}
    (binding : Machine.Binding machine call.callee.first stack (call.parcels items).reverse [] table after) :
    machine.Bound call stack items table after where
  next := by rw [binding.next, List.length_reverse, Call.parcels_length count]
  frames := binding.frames
  scopes := binding.scopes
  stack := binding.stack
  store := binding.store
  params := fun index parcel isParam isItem => by
    refine binding.held parcel (List.mem_reverse.mpr ?_)
    refine List.mem_map.mpr ⟨((parcel.name, parcel.ty), parcel.item), ?_, rfl⟩
    exact List.mem_of_getElem? (List.getElem?_zip_eq_some.mpr ⟨isParam, isItem⟩)
  names := fun name => by rw [binding.names, List.map_reverse, List.mem_reverse, Call.parcels_names count]
  alone := binding.alone

theorem Image.Calls.bind (goes : machine.phase = .idle ∨ machine.phase = .running) :
    (∀ after, machine.Goes setup (call.params.length + 1) after → machine.Admits setup call items) ∧
      (machine.Admits setup call items → machine.GoesTo setup (call.params.length + 1) fun after =>
        ∃ table, machine.Bound call stack items table after) := by
  have length : (call.parcels items).reverse.length = call.params.length := by
    rw [List.length_reverse, Call.parcels_length count]
  refine ⟨fun after goesOn => ?_, fun admits => Machine.goes_further fun calm => ?_⟩
  · cases goesOn with
    | @head _ _ entered _ advances goesOn =>
      have fetches : machine.image.Fetches machine.next (.call (.resolved call.callee.first)) := by
        rw [arrives.loaded, arrives.next]
        exact calls.calls
      have room : machine.frames.length < setup.maxDepth := by
        refine advances.leads (fun _ => machine.frames.length < setup.maxDepth) fetches
          (fun world events notices last ran => Nat.lt_of_not_le fun full => ?_) fun _ _ _ room => room
        have stops : ∃ error after, (Run.execute setup (.call (.resolved call.callee.first))).on
            { machine with world, events, notices, phase := .running, next := machine.next + 1 } = (.error error, after) :=
          Run.on_call_full full
        obtain ⟨error, failed, stops⟩ := stops
        rw [stops] at ran
        cases ran
      obtain ⟨next, also, binding⟩ := calls.enters contained arrives count goes advances.1 room
      obtain rfl := advances.same also
      exact ⟨room, fun parcel inside => binding.all_fit (length.symm ▸ goesOn) parcel (List.mem_reverse.mpr inside)⟩
  · obtain ⟨entered, advances, binding⟩ := calls.enters contained arrives count goes calm admits.1
    refine ⟨entered, advances, ?_⟩
    have further : entered.GoesTo setup (call.parcels items).reverse.length fun after => ∃ table,
        Machine.Binding machine call.callee.first stack ([] ++ (call.parcels items).reverse) [] table after :=
      binding.goes fun parcel inside => admits.2 parcel (List.mem_reverse.mp inside)
    rw [length] at further
    refine ⟨further.1, fun after behind => ?_⟩
    obtain ⟨table, binding⟩ := further.2 after behind
    exact ⟨table, binding.bound count⟩

end Calling

/-- Every `CALL` statement and every call in an expression of an accepted program has the code of a call. Let the machine come
there, whatever the host has done before, and let the code of each argument that is not shared leave its value, and that of
subscripts theirs. Then the arguments lie on the stack in the order of the source. From there the procedure is entered and its
parameters are bound exactly if there is room for its frame and each value can be converted to the type of its parameter: an
argument that is shared to the cell that it names, any other to a new cell with the value, and the stack is what it was
before the first argument. -/
theorem arguments_are_bound (source : String) (registry : Registry) (program : Program) (image : Image)
    (parsed : parse (tokenize source).1 = .ok program) (quiet : (program.check registry).diagnostics = [])
    (coded : (program.check registry).program.image (program.check registry).symbols registry = .ok image) :
    ∃ spans, (program.check registry).program.layout? (program.check registry).symbols registry = some spans ∧
      let symbols := (program.check registry).symbols
      let stands := (program.check registry).program.Stands symbols registry
      (∀ span ∈ spans, ∀ place name arguments entry, (place, Stmt.call name arguments) ∈ span.places →
        symbols.procedure? name = some entry →
          ∃ call : Call, call.name = name ∧ call.arguments = arguments ∧ call.params = entry.params ∧ call.place = place ∧
            image.Calls stands symbols spans call) ∧
      (∀ name arguments info place stop, (Expr.apply name arguments .function info).Accepted symbols registry →
        stands (fun context => Emit.value context (.apply name arguments .function info)) place stop →
          ∃ call : Call, call.name = name ∧ call.arguments = arguments ∧ call.place = place ∧ call.goes + 1 = stop ∧
            image.Calls stands symbols spans call) ∧
      ∀ call, image.Calls stands symbols spans call → ∀ (σ : Type) (setup : Setup σ) (world : σ) (calls : List HostCall),
        (∀ host ∈ calls, ∀ other, host ≠ .load other) →
        let start := (Machine.create world).afterAll setup (.load image :: calls)
        start.next = call.place → ∀ items machine,
          Machine.Passing setup start.frames call.types call.arguments call.stops start items machine →
          machine.phase = .idle ∨ machine.phase = .running →
          call.Delivers items ∧ machine.next = call.goes ∧ machine.frames = start.frames ∧
            machine.stack = items.reverse ++ start.stack ∧
            (∀ after, machine.Goes setup (call.params.length + 1) after → machine.Admits setup call items) ∧
            (machine.Admits setup call items → machine.GoesTo setup (call.params.length + 1) fun after =>
              ∃ table, machine.Bound call start.stack items table after) := by
  obtain ⟨spans, isLayout⟩ := Program.layout_of_image coded
  have accepted := Program.check_accepted (parse_well_formed (tokenize_lexed source) parsed) quiet
  have contained := accepted.contained coded isLayout
  have receives := accepted.receives coded isLayout
  have distinct (routine : Routine) := @Program.distinct_parameters _ _ quiet routine
  refine ⟨spans, isLayout, fun span isSpan place name arguments entry isCall found => ?_,
    fun name arguments info place stop callable stood => ?_,
    fun call calls σ setup world hosts sameImage atCall items machine passing goes => ?_⟩
  · obtain ⟨count, stop, stood⟩ := accepted.statement_stands coded isLayout isSpan isCall found
    obtain ⟨call, named, passed, params, starts, -, calls⟩ := accepted.calls coded isLayout distinct found count stood
    exact ⟨call, named, passed, params, starts, calls⟩
  · obtain ⟨entry, found, -, count⟩ := callable.2.2.2
    obtain ⟨call, named, passed, -, starts, ends, calls⟩ :=
      accepted.calls coded isLayout distinct found count (.of_value found stood)
    exact ⟨call, named, passed, starts, ends, calls⟩
  · have past : ¬image.Binds ((Machine.create world).afterAll setup (.load image :: hosts)).next := atCall ▸ calls.unbound
    have above := Machine.loaded_above setup contained world sameImage past
    have arrives := passing.arrives contained receives ⟨above, rfl, atCall, rfl⟩ calls.passes
    obtain ⟨delivered, shared⟩ := passing.delivered
    have count := delivered.trans calls.count.symm
    obtain ⟨admitted, binds⟩ := calls.bind contained arrives count goes
    refine ⟨⟨count, fun index argument item isArgument isItem => ?_⟩, arrives.next, arrives.frames, arrives.stack,
      admitted, binds⟩
    exact shared index argument item isArgument isItem

def samplePassing : String := "DIM A%(3)\nN = 5\nCALL S(N, 7, A%())\nEND\nSUB S(X, Y%, Z%())\nX = Y%\nEND SUB\n"

section Sample

theorem Machine.going_advances {σ : Type} {setup : Setup σ} {machine after : Machine σ}
    (going : machine.going setup 1 = some after) : machine.Advances setup after := by
  cases Machine.going_goes going with
  | head advances goes =>
    cases goes
    exact advances

def sampleParams : List (String × Ty) := [("X", .single), ("Y%", .integer), ("Z%", .array .integer 0)]

def Stmt.isSampleCall : Stmt → Bool
  | .call name [.variable first info, .literal (.integer number) _, .apply second [] .element _] =>
    name = "S" ∧ first = "N" ∧ number = 7 ∧ second = "A%" ∧ (Expr.variable first info).isShared (some .single) = true
  | _ => false

def leavesSeven : List StackItem → List StackItem → Bool
  | [.value (.integer number), .reference cell], [.reference other] => number = 7 ∧ cell = other
  | _, _ => false

theorem leaves_seven {after before : List StackItem} (leaves : leavesSeven after before = true) :
    after = .value (.integer 7) :: before := by
  unfold leavesSeven at leaves
  split at leaves
  · obtain ⟨rfl, rfl⟩ := of_decide_eq_true leaves
    rfl
  · cases leaves

def bindsSample (symbols : SymbolTable) (image : Image) (span : Span) : Bool :=
  let setup := Setup.ofDevices Bench.bare .standard
  (span.places.any fun listed => listed.1 = (afterSteps image 6).next ∧ listed.2.isSampleCall = true) ∧
    (symbols.procedure? "S").any (fun entry => entry.params = sampleParams) ∧
    ((afterSteps image 6).going setup 1).any fun named => (named.going setup 1).any fun valued =>
      (valued.going setup 1).any fun passed =>
        (named.lookup? "N").isSome ∧ valued.frames = (afterSteps image 6).frames ∧
          valued.next = (afterSteps image 6).next + 2 ∧ leavesSeven valued.stack named.stack ∧
          (passed.lookup? "A%").isSome ∧ passed.phase = .running ∧ (passed.going setup 4).isSome

theorem exists_binding (seen : (parse (tokenize samplePassing).1).toOption.any (fun program =>
    decide ((program.check .standard).diagnostics = [] ∧
      ((program.check .standard).program.image (program.check .standard).symbols .standard).toOption.any fun image =>
        ((program.check .standard).program.layout? (program.check .standard).symbols .standard).any fun spans =>
          spans.any (bindsSample (program.check .standard).symbols image))) = true) :
    ∃ program image spans, parse (tokenize samplePassing).1 = .ok program ∧ (program.check .standard).diagnostics = [] ∧
      (program.check .standard).program.image (program.check .standard).symbols .standard = .ok image ∧
      (program.check .standard).program.layout? (program.check .standard).symbols .standard = some spans ∧
      ∃ span ∈ spans, bindsSample (program.check .standard).symbols image span = true := by
  obtain ⟨program, parsed, quiet, seen⟩ := exists_parsed samplePassing _ seen
  obtain ⟨image, coded, seen⟩ := (Option.any_eq_true _ _).mp seen
  obtain ⟨spans, isLayout, seen⟩ := (Option.any_eq_true _ _).mp seen
  obtain ⟨span, isSpan, binds⟩ := List.any_eq_true.mp seen
  refine ⟨program, image, spans, parsed, quiet, ?_, isLayout, span, isSpan, binds⟩
  cases result : (program.check .standard).program.image (program.check .standard).symbols .standard with
  | error error =>
    rw [result] at coded
    cases coded
  | ok other =>
    rw [result] at coded
    exact congrArg Except.ok (Option.some.inj coded)

theorem Program.Stands.literal {program : Program} {symbols : SymbolTable} {registry : Registry} {literal : Literal}
    {info : ExprInfo} {place stop : Nat}
    (stands : program.Stands symbols registry (fun context => Emit.value context (.literal literal info)) place stop) :
    stop = place + 1 := by
  obtain ⟨whole, context, before, after, -, -, -, emitted, -, rfl, rfl⟩ := stands
  cases emitted
  exact Array.size_push _

theorem Program.passes_sample {program : Program} {symbols : SymbolTable} {registry : Registry} {image : Image}
    {first second : String} {literal : Literal} {info number whole : ExprInfo} {place : Nat} {stops : List Nat}
    (isShared : (Expr.variable first info).isShared (some .single) = true)
    (passes : image.Passes (program.Stands symbols registry) (sampleParams.map Prod.snd)
      [.variable first info, .literal literal number, .apply second [] .element whole] place stops) :
    stops = [place + 1, place + 2, place + 3] := by
  cases passes with
  | value isValue =>
    have same := isShared.symm.trans isValue
    cases same
  | storage _ refers others =>
    have next : ∀ {stop}, image.Refers (program.Stands symbols registry) (.variable first info) place stop →
        stop = place + 1 := by
      rintro _ (_ | _) <;> rfl
    obtain rfl := next refers
    cases others with
    | storage isShared => cases isShared
    | value _ computes others =>
      obtain rfl := computes.literal
      cases others with
      | value isValue => simp [Expr.isShared, Expr.isWholeArray] at isValue
      | storage _ refers others =>
        cases refers
        cases others
        rfl

theorem Machine.passes_sample {σ : Type} {setup : Setup σ} {start named valued passed : Machine σ} {cell array : Cell}
    {first second : String} {info : ExprInfo} (number whole : ExprInfo) {place : Nat}
    (isShared : (Expr.variable first info).isShared (some .single) = true)
    (naming : start.Advances setup named) (isCell : named.lookup? first = some cell)
    (valuing : named.Advances setup valued) (frames : valued.frames = start.frames) (next : valued.next = place + 2)
    (left : valued.stack = .value (.integer 7) :: named.stack)
    (passing : valued.Advances setup passed) (isArray : passed.lookup? second = some array) :
    Passing setup start.frames (sampleParams.map Prod.snd)
      [.variable first info, .literal (.integer 7) number, .apply second [] .element whole] [place + 1, place + 2, place + 3]
      start [.reference cell, .value (.integer 7), .reference array] passed := by
  refine .storage isShared (.variable ⟨.refl, rfl, rfl, rfl⟩ naming isCell) ?_
  refine .value rfl (valuing.onward (frames ▸ List.suffix_refl _)) next frames left ?_
  refine .storage ?_ (.whole ⟨.refl, rfl, rfl, rfl⟩ passing isArray) (.nil ⟨.refl, rfl, rfl, rfl⟩)
  simp [Expr.isShared, Expr.isWholeArray]

/-- The variable and the array are those of the caller, and the number is in a variable of its own. -/
theorem sample_arguments_are_bound :
    ∃ (program : Program) (image : Image) (call : Call) (cell array own : Cell) (machine after : Machine Bench)
      (table : Table Cell),
      parse (tokenize samplePassing).1 = .ok program ∧ (program.check .standard).diagnostics = [] ∧
        (program.check .standard).program.image (program.check .standard).symbols .standard = .ok image ∧
        call.params = sampleParams ∧
        Machine.Passing (.ofDevices Bench.bare .standard) (afterSteps image 6).frames call.types call.arguments call.stops
          (afterSteps image 6) [.reference cell, .value (.integer 7), .reference array] machine ∧
        machine.Goes (.ofDevices Bench.bare .standard) 4 after ∧ after.stack = (afterSteps image 6).stack ∧
        table.get? "X" = some cell ∧ table.get? "Z%" = some array ∧ table.get? "Y%" = some own ∧
        after.store.read own = .integer 7 := by
  obtain ⟨program, image, spans, parsed, quiet, coded, isLayout, span, isSpan, binds⟩ := exists_binding (by decide +kernel)
  obtain ⟨isThere, isEntry, goes⟩ := of_decide_eq_true binds
  obtain ⟨⟨place, stmt⟩, isPlace, isThere⟩ := List.any_eq_true.mp isThere
  obtain ⟨atCall, isCall⟩ := of_decide_eq_true isThere
  obtain ⟨entry, found, isEntry⟩ := (Option.any_eq_true _ _).mp isEntry
  have params : entry.params = sampleParams := of_decide_eq_true isEntry
  obtain ⟨named, naming, goes⟩ := (Option.any_eq_true _ _).mp goes
  obtain ⟨valued, valuing, goes⟩ := (Option.any_eq_true _ _).mp goes
  obtain ⟨passed, passing, goes⟩ := (Option.any_eq_true _ _).mp goes
  obtain ⟨isVariable, frames, next, leaves, isArray, running, goes⟩ := of_decide_eq_true goes
  obtain ⟨cell, isCell⟩ := Option.isSome_iff_exists.mp isVariable
  obtain ⟨array, isArray⟩ := Option.isSome_iff_exists.mp isArray
  obtain ⟨after, goes⟩ := Option.isSome_iff_exists.mp goes
  obtain ⟨others, isOther, statements, -, bound⟩ :=
    arguments_are_bound samplePassing .standard program image parsed quiet coded
  obtain rfl : others = spans := Option.some.inj (isOther.symm.trans isLayout)
  change stmt.isSampleCall = true at isCall
  unfold Stmt.isSampleCall at isCall
  split at isCall
  · next name first info number middle second whole =>
    obtain ⟨rfl, rfl, rfl, rfl, isShared⟩ := of_decide_eq_true isCall
    obtain ⟨call, -, arguments, sameParams, starts, calls⟩ := statements span isSpan place _ _ entry isPlace found
    have isParams : call.params = sampleParams := sameParams.trans params
    have types : call.types = sampleParams.map Prod.snd := by rw [Call.types, isParams]
    have passes := calls.passes
    rw [types, arguments] at passes
    have stops := Program.passes_sample isShared passes
    have atStart : (afterSteps image 6).next = call.place := starts.trans atCall |>.symm
    have names := Machine.passes_sample middle whole isShared (Machine.going_advances naming) isCell
      (Machine.going_advances valuing) frames (by rw [next, atStart]) (leaves_seven leaves)
        (Machine.going_advances passing) isArray
    rw [← types, ← arguments, ← stops] at names
    obtain ⟨-, -, -, -, admitted, binds⟩ := bound call calls Bench (.ofDevices Bench.bare .standard) Bench.empty
      (List.replicate 6 .step) (by simp) atStart _ passed names (.inr running)
    have goes := Machine.going_goes goes
    rw [isParams] at admitted binds
    obtain ⟨table, held⟩ := (binds (admitted after goes)).2 after goes
    obtain ⟨_, isX, rfl⟩ := held.params 0 ⟨"X", .single, .reference cell⟩ (isParams ▸ rfl) rfl
    obtain ⟨own, isY, -, value, taken, read⟩ := held.params 1 ⟨"Y%", .integer, .value (.integer 7)⟩ (isParams ▸ rfl) rfl
    obtain ⟨_, isZ, rfl⟩ := held.params 2 ⟨"Z%", .array .integer 0, .reference array⟩ (isParams ▸ rfl) rfl
    have seven : Ty.integer.taken (.integer 7) = .ok (.integer 7) := rfl
    obtain rfl := Except.ok.inj (seven.symm.trans taken)
    exact ⟨program, image, call, _, _, own, passed, after, table, parsed, quiet, coded, isParams, names, goes,
      held.stack, isX, isZ, isY, read⟩
  · cases isCall

end Sample

end BasicLang
