import BasicLang.Proofs.Code.Loops
import BasicLang.Proofs.Code.Parameters
import BasicLang.Proofs.Typing.ScopesProgram

set_option autoImplicit false

namespace BasicLang

def Expr.isWholeArray : Expr → Bool
  | .variable _ info => (info.ty.getD .any).isArray
  | .apply _ [] .element _ => true
  | .grouped inner _ => inner.isWholeArray
  | _ => false

def Expr.isShared (argument : Expr) (param : Option Ty) :
    Bool := argument.isPassedByReference param || argument.isWholeArray

abbrev Stand := (EmitContext → Emit Unit) → Nat → Nat → Prop

def Program.Stands (program : Program) (symbols : SymbolTable) (registry : Registry) :
    Stand := fun emission place stop =>
  ∃ whole context before after, (Emit.program (emitContext symbols registry) program).run .empty = .ok ((), whole) ∧
    context.symbols = symbols ∧ context.registry = registry ∧ (emission context).run before = .ok ((), after) ∧
    Assembly.Grows after whole ∧ before.code.size = place ∧ after.code.size = stop

namespace Image

inductive Refers (image : Image) (stands : Stand) : Expr → Nat → Nat → Prop where
  | scalar {name : String} {info : ExprInfo} {place : Nat} (fetches : image.Fetches place (.pushRef name)) :
      Refers image stands (.variable name info) place (place + 1)
  | array {name : String} {info : ExprInfo} {element : Ty} {rank place : Nat}
      (fetches : image.Fetches place (.pushArray name element rank)) :
      Refers image stands (.variable name info) place (place + 1)
  | whole {name : String} {info : ExprInfo} {element : Ty} {rank place : Nat}
      (fetches : image.Fetches place (.pushArray name element rank)) :
      Refers image stands (.apply name [] .element info) place (place + 1)
  | element {name : String} {info : ExprInfo} {first : Expr} {rest : List Expr} {element : Ty} {place stop : Nat}
      (fetches : image.Fetches place (.pushArray name element (rest.length + 1)))
      (subscripts : stands (fun context => Emit.values context (first :: rest)) (place + 1) stop)
      (derefs : image.Fetches stop (.arrayDeref (rest.length + 1) true)) :
      Refers image stands (.apply name (first :: rest) .element info) place (stop + 1)
  | member {object : Expr} {name : String} {info : ExprInfo} {place stop : Nat} (owner : Refers image stands object place stop)
      (derefs : image.Fetches stop (.memberDeref name true)) : Refers image stands (.member object name info) place (stop + 1)
  | grouped {inner : Expr} {info : ExprInfo} {place stop : Nat} (inside : Refers image stands inner place stop) :
      Refers image stands (.grouped inner info) place stop

inductive Passes (image : Image) (stands : Stand) : List Ty → List Expr → Nat → List Nat → Prop where
  | nil (params : List Ty) (place : Nat) : Passes image stands params [] place []
  | storage {params : List Ty} {first : Expr} {rest : List Expr} {place stop : Nat} {stops : List Nat}
      (isShared : first.isShared params.head? = true) (refers : image.Refers stands first place stop)
      (others : Passes image stands params.tail rest stop stops) :
      Passes image stands params (first :: rest) place (stop :: stops)
  | value {params : List Ty} {first : Expr} {rest : List Expr} {place stop : Nat} {stops : List Nat}
      (isValue : first.isShared params.head? = false) (computes : stands (fun context => Emit.value context first) place stop)
      (others : Passes image stands params.tail rest stop stops) :
      Passes image stands params (first :: rest) place (stop :: stops)

end Image

structure Call where
  name : String
  arguments : List Expr
  params : List (String × Ty)
  place : Nat
  stops : List Nat
  callee : Span

def Call.goes (call : Call) : Nat := call.stops.getLastD call.place

def Call.types (call : Call) : List Ty := call.params.map Prod.snd

/-- The code of a call and, at the entry of the procedure, the instructions that bind its parameters, the last one first. -/
structure Image.Calls (image : Image) (stands : Stand) (symbols : SymbolTable) (spans : List Span) (call : Call) :
    Prop where
  passes : image.Passes stands call.types call.arguments call.place call.stops
  calls : image.Fetches call.goes (.call (.resolved call.callee.first))
  count : call.params.length = call.arguments.length
  declared : ∃ entry, symbols.procedure? call.name = some entry ∧ entry.params = call.params
  isCallee : call.callee ∈ spans
  isProcedure : call.callee.routine.kind ≠ .main
  named : call.callee.routine.name = call.name
  distinct : (call.params.map Prod.fst).Nodup
  binds : image.Embeds call.callee.first (call.params.reverse.map fun (name, ty) => .popParam name ty)
  unbound : ¬image.Binds call.place

namespace Emit

variable {whole : Assembly} {image : Image} {context : EmitContext} {stands : Stand}

theorem phrase_error {α : Type} {error : CodeError} {meaning : Assembly → α → Assembly → Prop} :
    Phrase whole (throw error : Emit α) meaning := by
  intro before result after ran
  cases ran

theorem phrase_entry (name : String) : Phrase whole (entryLabel name) fun before id after =>
    whole.entries.get? name = some id ∧ after.code.size = before.code.size := by
  intro before id after ran grows
  have found : before.entryLabel name = (id, after) := Except.ok.inj ran
  have isEntry := before.entry_label_found name
  have code := before.entry_label_code name
  have step := (Assembly.entry_label_step before name).1
  have more : before.temporaries ≤ (before.entryLabel name).2.temporaries := by
    unfold Assembly.entryLabel
    split <;> exact Nat.le_refl _
  rw [found] at isEntry code step more
  exact ⟨step.trans grows, more, grows.entries _ _ isEntry, congrArg Array.size code⟩

theorem phrase_standing (emitted : ∀ emission before after, (emission context).run before = .ok ((), after) →
    Assembly.Grows after whole → stands emission before.code.size after.code.size) (emission : EmitContext → Emit Unit)
    {meaning : Assembly → Unit → Assembly → Prop} (phrase : Phrase whole (emission context) meaning) :
    Phrase whole (emission context) fun before result after =>
      stands emission before.code.size after.code.size ∧ meaning before result after := by
  intro before result after ran grows
  obtain ⟨grown, more, said⟩ := phrase before result after ran grows
  exact ⟨grown, more, emitted emission before after ran grows, said⟩

variable (linked : whole.Linked image)

section Storage

include linked

theorem phrase_whole_array (name : String) (ty : Ty) : Phrase whole (wholeArray name ty) fun before _ after =>
    (∃ element rank, image.Fetches before.code.size (.pushArray name element rank)) ∧
      after.code.size = before.code.size + 1 := by
  unfold wholeArray
  split <;>
    exact phrase_weaken (phrase_op linked _ rfl) fun before _ after _ said => ⟨⟨_, _, said.1⟩, said.2⟩

variable (emitted : ∀ emission before after, (emission context).run before = .ok ((), after) →
  Assembly.Grows after whole → stands emission before.code.size after.code.size)

include emitted

theorem phrase_refers (expr : Expr) : Phrase whole (reference context expr) fun before _ after =>
    image.Refers stands expr before.code.size after.code.size := by
  cases expr with
  | «variable» name info =>
    rw [reference]
    unfold namedStorage
    split
    · refine phrase_weaken (phrase_op linked _ rfl) ?_
      rintro before _ after - ⟨fetches, size⟩
      exact size ▸ .array fetches
    · refine phrase_weaken (phrase_op linked _ rfl) ?_
      rintro before _ after - ⟨fetches, size⟩
      exact size ▸ .scalar fetches
  | apply name arguments callee info =>
    cases callee with
    | element =>
      cases arguments with
      | nil =>
        refine phrase_weaken (phrase_whole_array linked _ _) ?_
        rintro before _ after - ⟨⟨element, rank, fetches⟩, size⟩
        exact size ▸ .whole fetches
      | cons first rest =>
        have some : Phrase whole (values context (first :: rest)) fun before _ after => before.code.size ≤ after.code.size :=
          phrase_some (closed_values keeps_step.plain.inner _ (Expr.rooted_anywhere _))
            (closed_values keeps_count.quiet.inner _ (Expr.rooted_anywhere _))
        have subscripts := phrase_standing emitted (fun context => values context (first :: rest)) some
        refine phrase_weaken (phrase_seq (phrase_op linked _ rfl) fun _ => phrase_seq subscripts fun _ =>
          phrase_op linked _ rfl) ?_
        rintro before _ after - ⟨_, named, ⟨names, size⟩, -, _, indexed, ⟨stood, -⟩, -, derefs, isLast⟩
        exact isLast ▸ .element names (size ▸ stood) derefs
    | _ => exact phrase_error
  | member object name info =>
    refine phrase_weaken (phrase_seq (phrase_refers object) fun _ => phrase_op linked _ rfl) ?_
    rintro before _ after - ⟨_, middle, owner, -, derefs, size⟩
    exact size ▸ .member owner derefs
  | grouped inner info => exact phrase_weaken (phrase_refers inner) fun _ _ _ _ inside => .grouped inside
  | _ => exact phrase_error

omit emitted in
theorem phrase_array (expr : Expr) (isArray : expr.isWholeArray = true) :
    Phrase whole (value context expr) fun before _ after => image.Refers stands expr before.code.size after.code.size := by
  cases expr with
  | «variable» name info =>
    rw [value]
    unfold namedStorage
    split
    · refine phrase_weaken (phrase_op linked _ rfl) ?_
      rintro before _ after - ⟨fetches, size⟩
      exact size ▸ .array fetches
    · next plain =>
      unfold Expr.isWholeArray at isArray
      cases ty : info.ty.getD .any with
      | array element rank => exact absurd ty (plain element rank)
      | _ =>
        rw [ty] at isArray
        cases isArray
  | apply name arguments callee info =>
    cases arguments with
    | nil =>
      cases callee with
      | element =>
        refine phrase_weaken (phrase_whole_array linked _ _) ?_
        rintro before _ after - ⟨⟨element, rank, fetches⟩, size⟩
        exact size ▸ .whole fetches
      | _ => cases isArray
    | cons first rest => cases isArray
  | grouped inner info => exact phrase_weaken (phrase_array inner isArray) fun _ _ _ _ inside => .grouped inside
  | _ => cases isArray

theorem phrase_passes (params : List Ty) (arguments : List Expr) :
    Phrase whole (procedureArguments context params arguments) fun before _ after =>
      ∃ stops, image.Passes stands params arguments before.code.size stops ∧
        after.code.size = stops.getLastD before.code.size := by
  induction arguments generalizing params with
  | nil =>
    refine phrase_weaken (phrase_unit ()) ?_
    rintro before _ after - ⟨-, rfl⟩
    exact ⟨[], .nil _ _, rfl⟩
  | cons first rest ih =>
    rw [procedureArguments]
    split
    · next isPassed =>
      refine phrase_weaken (phrase_seq (phrase_refers linked emitted first) fun _ => ih params.tail) ?_
      rintro before _ after - ⟨_, middle, refers, -, stops, others, size⟩
      exact ⟨_, .storage (by rw [Expr.isShared, isPassed, Bool.true_or]) refers others, by rw [List.getLastD_cons, size]⟩
    · next notPassed =>
      rw [Bool.not_eq_true] at notPassed
      by_cases isArray : first.isWholeArray = true
      · have refers : Phrase whole (value context first) fun before _ after =>
            image.Refers stands first before.code.size after.code.size := phrase_array linked first isArray
        refine phrase_weaken (phrase_seq refers fun _ => ih params.tail) ?_
        rintro before _ after - ⟨_, middle, refers, -, stops, others, size⟩
        exact ⟨_, .storage (by rw [Expr.isShared, isArray, Bool.or_true]) refers others, by rw [List.getLastD_cons, size]⟩
      · have computes := phrase_standing emitted (fun context => value context first) (phrase_any_value context first)
        refine phrase_weaken (phrase_seq computes fun _ => ih params.tail) ?_
        rintro before _ after - ⟨_, middle, ⟨stood, -⟩, -, stops, others, size⟩
        rw [Bool.not_eq_true] at isArray
        exact ⟨_, .value (by rw [Expr.isShared, notPassed, isArray, Bool.or_false]) stood others,
          by rw [List.getLastD_cons, size]⟩

theorem phrase_call_procedure (entry : ProcedureEntry) (name : String) (arguments : List Expr) :
    Phrase whole (callProcedure context entry name arguments) fun before _ after =>
      ∃ stops id first, image.Passes stands (entry.params.map Prod.snd) arguments before.code.size stops ∧
        whole.entries.get? name = some id ∧ whole.placeOf? id = some first ∧
        image.Fetches (stops.getLastD before.code.size) (.call (.resolved first)) ∧
        after.code.size = stops.getLastD before.code.size + 1 := by
  have jumps (id : Nat) := phrase_jump linked .call id fun _ _ _ => rfl
  refine phrase_weaken (phrase_seq (phrase_passes linked emitted _ arguments) fun _ =>
    phrase_seq (phrase_entry name) fun id => jumps id) ?_
  rintro before _ after - ⟨_, passed, ⟨stops, passes, size⟩, -, id, labelled, ⟨isEntry, same⟩, -, ⟨first, placed, calls⟩, last⟩
  rw [same, size] at calls last
  exact ⟨stops, id, first, passes, isEntry, placed, calls, last⟩

end Storage

end Emit

namespace Program

variable {program : Program} {symbols : SymbolTable} {registry : Registry} {image : Image} {spans : List Span}

theorem Accepted.calls (accepted : program.Accepted symbols registry)
    (coded : program.image symbols registry = .ok image)
    (isLayout : program.layout? symbols registry = some spans)
    (distinct : ∀ routine ∈ program.procedures, (routine.params.map Parameter.name).Nodup)
    {name : String} {arguments : List Expr} {entry : ProcedureEntry} {place stop : Nat}
    (found : symbols.procedure? name = some entry) (count : entry.params.length = arguments.length)
    (stands : program.Stands symbols registry (fun context => Emit.callProcedure context entry name arguments) place stop) :
    ∃ call : Call, call.name = name ∧ call.arguments = arguments ∧ call.params = entry.params ∧ call.place = place ∧
      call.goes + 1 = stop ∧ image.Calls (program.Stands symbols registry) symbols spans call := by
  obtain ⟨whole, ran, ranLayout, links, size, -⟩ := laid_out coded isLayout
  obtain ⟨spread, routines⟩ := Emit.spread_layout ranLayout
  obtain ⟨other, context, before, after, alsoRan, isTable, isRegistry, ranCall, grows, rfl, rfl⟩ := stands
  obtain rfl : other = whole := by
    rw [ran] at alsoRan
    exact (congrArg Prod.snd (Except.ok.inj alsoRan)).symm
  have emitted (emission : EmitContext → Emit Unit) (before after : Assembly)
      (ranPart : (emission context).run before = .ok ((), after)) (grows : Assembly.Grows after other) :
      program.Stands symbols registry emission before.code.size after.code.size :=
    ⟨other, context, before, after, ran, isTable, isRegistry, ranPart, grows, rfl, rfl⟩
  obtain ⟨-, -, stops, id, first, passes, isEntry, placed, calls, last⟩ :=
    Emit.phrase_call_procedure links emitted entry name arguments before () after ranCall grows
  obtain ⟨span, isSpan, isProcedure, rfl, rfl⟩ := accepted.calls_first ran spread routines isEntry placed
  obtain ⟨described, isDescribed, describes⟩ := accepted.defines.described span.routine isProcedure
  obtain rfl : described = entry := Option.some.inj (isDescribed.symm.trans found)
  have kind := (accepted.procedures _ isProcedure).1
  obtain ⟨bound, isBound, binds⟩ := (accepted.receives coded isLayout).entry span isSpan kind
  obtain rfl : bound = described := Option.some.inj (isBound.symm.trans found)
  refine ⟨⟨span.routine.name, arguments, bound.params, before.code.size, stops, span⟩, rfl, rfl, rfl, rfl, last.symm, ?_⟩
  refine ⟨passes, calls, count, ⟨bound, found, rfl⟩, isSpan, kind, rfl, describes.params ▸ distinct _ isProcedure, binds, ?_⟩
  -- The first instruction is one of the arguments, or the call itself.
  intro isBound
  obtain ⟨instruction, isFirst, binding⟩ := links.binds size isBound
  have longer := Emit.longer_call context bound span.routine.name arguments _ _ _ ranCall
  have unbound := Emit.closed_call_procedure Emit.keeps_unbound.quiet.inner span.routine.name (Expr.rooted_anywhere _)
    (Expr.rooted_anywhere _) before () after ranCall
  have free := unbound.2 _ _ (Nat.le_refl _) (Assembly.found_before grows.code isFirst longer)
  simp [binding] at free

theorem Stands.of_value {name : String} {arguments : List Expr} {info : ExprInfo} {entry : ProcedureEntry}
    {place stop : Nat}
    (found : symbols.procedure? name = some entry)
    (stands : program.Stands symbols registry (fun context => Emit.value context (.apply name arguments .function info)) place
      stop) :
    program.Stands symbols registry (fun context => Emit.callProcedure context entry name arguments) place stop := by
  obtain ⟨whole, context, before, after, ran, isTable, isRegistry, ranValue, grows, start, last⟩ := stands
  dsimp only at ranValue
  rw [Emit.value_function, isTable, found] at ranValue
  exact ⟨whole, context, before, after, ran, isTable, isRegistry, ranValue, grows, start, last⟩

theorem Accepted.statement_stands (accepted : program.Accepted symbols registry)
    (coded : program.image symbols registry = .ok image) (isLayout : program.layout? symbols registry = some spans)
    {span : Span} (isSpan : span ∈ spans) {place : Nat} {name : String} {arguments : List Expr} {entry : ProcedureEntry}
    (isCall : (place, Stmt.call name arguments) ∈ span.places) (found : symbols.procedure? name = some entry) :
    entry.params.length = arguments.length ∧
      ∃ stop, program.Stands symbols registry (fun context => Emit.callProcedure context entry name arguments) place stop := by
  obtain ⟨whole, ran, ranLayout, -⟩ := laid_out coded isLayout
  obtain ⟨spread, routines⟩ := Emit.spread_layout ranLayout
  have isRoutine : span.routine ∈ program.routines := routines ▸ List.mem_map_of_mem isSpan
  have listed : Stmt.call name arguments ∈ span.routine.body.statements :=
    (spread.each span isSpan).statements ▸ List.mem_map_of_mem isCall
  obtain ⟨checked, -, -, -, callable⟩ := Block.Accepted.statements _ _ (accepted.bodies _ isRoutine) _ listed
  rcases callable with ⟨other, isOther, notFunction, -, count⟩ | ⟨missing, -⟩
  · obtain rfl : other = entry := Option.some.inj (isOther.symm.trans found)
    obtain ⟨exit, housed⟩ := Emit.housed_layout ranLayout span isSpan
    obtain ⟨loops, locus, before, places, after, rfl, grows, ranStmt⟩ := housed.statements _ _ isCall
    have ranCall := Emit.run_forget (Emit.forget_stmt _ _ _) ranStmt
    rw [Emit.stmt, Emit.call] at ranCall
    dsimp only [emitContext] at ranCall
    rw [found] at ranCall
    dsimp only at ranCall
    rw [if_neg notFunction] at ranCall
    obtain ⟨⟨⟩, between, ranCall, rest⟩ := Emit.run_seq ranCall
    cases rest
    exact ⟨count, after.code.size, whole, _, before, after, ran, rfl, rfl, ranCall, grows, rfl, rfl⟩
  · rw [missing] at found
    cases found

end Program

end BasicLang
