import BasicLang.Proofs.Code.Containment

set_option autoImplicit false

namespace BasicLang

def Stmt.output? : Stmt → Option (Option Expr)
  | .print file _ _ _ | .write file _ => some file
  | _ => none

section Selections

variable {code : Array Instruction} {place : Nat}

def selections (code : Array Instruction) (place : Nat) : Nat :=
  (code.toList.take place).countP fun instruction => instruction.op.isSelection

def Redirected (code : Array Instruction) (place : Nat) : Prop := selections code place % 2 = 1

instance (code : Array Instruction) (place : Nat) : Decidable (Redirected code place) :=
  inferInstanceAs (Decidable (_ = _))

theorem selections_next {instruction : Instruction} (found : code[place]? = some instruction) :
    selections code (place + 1) = selections code place + if instruction.op.isSelection then 1 else 0 := by
  have listed : code.toList[place]? = some instruction := by rwa [Array.getElem?_toList]
  rw [selections, List.take_add_one, listed, List.countP_append]
  simp [selections]

theorem selections_past (beyond : code[place]? = none) : selections code (place + 1) = selections code place := by
  have listed : code.toList[place]? = none := by rwa [Array.getElem?_toList]
  rw [selections, List.take_add_one, listed, Option.toList_none, List.append_nil, selections]

theorem selections_mono {other : Nat} (before : place ≤ other) : selections code place ≤ selections code other :=
  (List.take_prefix_take_left before).sublist.countP_le

theorem selections_kept {longer : Array Instruction} (grows : code.toList <+: longer.toList)
    (inside : place ≤ code.size) : selections longer place = selections code place := by
  obtain ⟨rest, appended⟩ := grows
  rw [selections, ← appended, List.take_append_of_le_length (by simpa using inside)]
  rfl

/-- What stands where code is redirected. The console is selected by its number, zero. -/
def Inside (code : Array Instruction) (place : Nat) (op : Op) : Prop :=
  op.isInner = true ∨ op.isText = true ∨
    (op.isSelection = true ∧ ∃ earlier locus, place = earlier + 1 ∧ code[earlier]? = some ⟨.pushConst (.integer 0), locus⟩)

/-- A place prints an item of the last statement that starts at or before it, and is redirected as the statement says. -/
def Item (code : Array Instruction) (noted : List (Nat × Stmt)) (place : Nat) : Prop :=
  ∃ earlier start stmt file later, noted = earlier ++ (start, stmt) :: later ∧ start ≤ place ∧
    (∀ entry ∈ later, place < entry.1) ∧ stmt.output? = some file ∧ ¬Redirected code start ∧
    selections code place = selections code start + if file.isSome then 1 else 0

theorem Item.mono {noted : List (Nat × Stmt)} {longer : Array Instruction} (item : Item code noted place)
    (grows : code.toList <+: longer.toList) (inside : place ≤ code.size) : Item longer noted place := by
  obtain ⟨earlier, start, stmt, file, later, isNoted, starts, isLast, isOutput, calm, counted⟩ := item
  have same := selections_kept grows (Nat.le_trans starts inside)
  refine ⟨earlier, start, stmt, file, later, isNoted, starts, isLast, isOutput, ?_, ?_⟩
  · rwa [Redirected, same]
  · rwa [selections_kept grows inside, same]

theorem Item.nowhere : ¬Item code [] place := by
  rintro ⟨earlier, _, _, _, later, isNoted, -⟩
  cases earlier <;> cases isNoted

end Selections

namespace Assembly

variable {before after : Assembly} {start : Nat} {noted : List (Nat × Stmt)}

structure Routed (assembly : Assembly) : Prop where
  labels : ∀ id place, assembly.placeOf? id = some place →
    place ≤ assembly.code.size ∧ ¬Redirected assembly.code place
  inside : ∀ place instruction, assembly.code[place]? = some instruction → Redirected assembly.code place →
    Inside assembly.code place instruction.op

def selected (assembly : Assembly) : Nat := selections assembly.code assembly.code.size

structure Printed (start : Nat) (noted : List (Nat × Stmt)) (assembly : Assembly) : Prop extends Routed assembly where
  calm : ¬Redirected assembly.code assembly.code.size
  behind : start ≤ assembly.code.size
  beyond : ∀ entry ∈ noted, start ≤ entry.1
  items : ∀ place instruction, start ≤ place → assembly.code[place]? = some instruction →
    instruction.op.isText = true → Item assembly.code noted place

def Spares (before after : Assembly) : Prop :=
  before.code.toList <+: after.code.toList ∧ ∀ start noted, before.Printed start noted → after.Printed start noted

theorem Spares.trans {between : Assembly} (early : Spares before between) (late : Spares between after) :
    Spares before after :=
  ⟨early.1.trans late.1, fun start noted printed => late.2 start noted (early.2 start noted printed)⟩

def Writes (before after : Assembly) : Prop :=
  before.code.toList <+: after.code.toList ∧
    (before.Routed → after.Routed ∧ after.selected = before.selected)

theorem prefix_longer (grows : before.code.toList <+: after.code.toList) : before.code.size ≤ after.code.size := by
  simpa using grows.length_le

theorem emit_selected (assembly : Assembly) (op : Op) :
    (assembly.emit op).selected = assembly.selected + if op.isSelection then 1 else 0 := by
  have found : (assembly.emit op).code[assembly.code.size]? = some ⟨op, assembly.locus⟩ := by simp [emit]
  have size : (assembly.emit op).code.size = assembly.code.size + 1 := by simp [emit]
  rw [selected, size, selections_next found, selections_kept (emit_step assembly op).1.code (Nat.le_refl _)]
  rfl

theorem selections_between (grows : before.code.toList <+: after.code.toList) (same : after.selected = before.selected)
    {place : Nat} (behind : before.code.size ≤ place) (inside : place ≤ after.code.size) :
    selections after.code place = before.selected := by
  refine Nat.le_antisymm ?_ ?_
  · exact same ▸ selections_mono inside
  · rw [selected, ← selections_kept grows (Nat.le_refl _)]
    exact selections_mono behind

theorem Routed.emit (routed : before.Routed) {op : Op}
    (inside : Redirected before.code before.code.size → Inside before.code before.code.size op) :
    (before.emit op).Routed := by
  have grows := (emit_step before op).1
  have same {place : Nat} (below : place ≤ before.code.size) :
      Redirected (before.emit op).code place ↔ Redirected before.code place := by
    rw [Redirected, selections_kept grows.code below, Redirected]
  have kept {place : Nat} {other : Op} (is : Inside before.code place other) : Inside (before.emit op).code place other := by
    obtain inner | text | ⟨selects, earlier, locus, isNext, pushed⟩ := is
    · exact .inl inner
    · exact .inr (.inl text)
    · exact .inr (.inr ⟨selects, earlier, locus, isNext, grows.fetched pushed⟩)
  refine ⟨fun id place placed => ?_, fun place instruction found redirected => ?_⟩
  · obtain ⟨below, calm⟩ := routed.labels id place placed
    exact ⟨Nat.le_trans below grows.longer, mt (same below).mp calm⟩
  · obtain old | ⟨rfl, rfl⟩ := emit_found found
    · exact kept (routed.inside place instruction old ((same (Nat.le_of_lt (found_below old))).mp redirected))
    · exact kept (inside ((same (Nat.le_refl _)).mp redirected))

theorem Printed.emit (printed : before.Printed start noted) {op : Op}
    (quiet : (!op.isText && !op.isSelection) = true) : (before.emit op).Printed start noted := by
  have grows := (emit_step before op).1
  obtain ⟨notText, notSelection⟩ := Bool.and_eq_true_iff.mp quiet
  rw [Bool.not_eq_true'] at notText notSelection
  refine ⟨printed.toRouted.emit fun redirected => absurd redirected printed.calm, ?_,
    Nat.le_trans printed.behind grows.longer, printed.beyond, ?_⟩
  · have same := emit_selected before op
    rw [notSelection, if_neg Bool.false_ne_true] at same
    have calm := printed.calm
    rwa [Redirected, ← selected, same, selected]
  · intro place instruction behind found isText
    obtain old | ⟨-, rfl⟩ := emit_found found
    · exact (printed.items place instruction behind old isText).mono grows.code (Nat.le_of_lt (found_below old))
    · exact absurd (isText.symm.trans notText) (by decide)

theorem Printed.place (printed : before.Printed start noted) {id : Nat} (placed : before.place id = .ok after) :
    after.Printed start noted := by
  have places := place_of_placed placed
  obtain ⟨label, -, -, rfl⟩ := place_cases placed
  refine ⟨⟨fun other place isPlaced => ?_, printed.inside⟩, printed.calm, printed.behind, printed.beyond, printed.items⟩
  rw [places] at isPlaced
  split at isPlaced
  · obtain rfl := Option.some.inj isPlaced
    exact ⟨Nat.le_refl _, printed.calm⟩
  · exact printed.labels other place isPlaced

theorem Routed.view (routed : before.Routed) (code : after.code = before.code)
    (places : after.placeOf? = before.placeOf?) :
    after.Routed := by
  obtain ⟨labels, inside⟩ := routed
  exact ⟨by rwa [code, places], by rwa [code]⟩

theorem Printed.view (printed : before.Printed start noted) (code : after.code = before.code)
    (places : after.placeOf? = before.placeOf?) : after.Printed start noted := by
  obtain ⟨routed, calm, behind, beyond, items⟩ := printed
  exact ⟨routed.view code places, by rwa [code], by rwa [code], beyond, by rwa [code]⟩

theorem Routed.printed (routed : before.Routed) (calm : ¬Redirected before.code before.code.size) :
    before.Printed before.code.size [] := by
  refine ⟨routed, calm, Nat.le_refl _, fun _ inside => (nomatch inside), ?_⟩
  exact fun place instruction behind found _ => absurd (found_below found) (Nat.not_lt.mpr behind)

theorem Printed.fresh (printed : before.Printed start noted) : before.Printed before.code.size [] :=
  printed.toRouted.printed printed.calm

theorem Printed.join {places : List (Nat × Stmt)} (early : before.Printed start noted)
    (grows : before.code.toList <+: after.code.toList) (late : after.Printed before.code.size places) :
    after.Printed start (noted ++ places) := by
  refine ⟨late.toRouted, late.calm, Nat.le_trans early.behind late.behind, ?_, ?_⟩
  · refine List.forall_mem_append.mpr ⟨early.beyond, fun entry isLate => ?_⟩
    exact Nat.le_trans early.behind (late.beyond entry isLate)
  · intro place instruction isBehind found isText
    by_cases isEarly : place < before.code.size
    · have old := found_before grows found isEarly
      obtain ⟨earlier, first, stmt, file, later, rfl, starts, isLast, said⟩ :=
        (early.items place instruction isBehind old isText).mono grows (Nat.le_of_lt isEarly)
      refine ⟨earlier, first, stmt, file, later ++ places, by simp, starts, ?_, said⟩
      exact List.forall_mem_append.mpr ⟨isLast, fun entry isLate => Nat.lt_of_lt_of_le isEarly (late.beyond entry isLate)⟩
    · obtain ⟨earlier, first, stmt, file, later, rfl, said⟩ :=
        late.items place instruction (Nat.not_lt.mp isEarly) found isText
      exact ⟨noted ++ earlier, first, stmt, file, later, by simp, said⟩

theorem Printed.cons (printed : after.Printed start noted) (stmt : Stmt) :
    after.Printed start ((start, stmt) :: noted) := by
  refine ⟨printed.toRouted, printed.calm, printed.behind, List.forall_mem_cons.mpr ⟨Nat.le_refl _, printed.beyond⟩, ?_⟩
  intro place instruction behind found isText
  obtain ⟨earlier, first, inner, file, later, rfl, said⟩ := printed.items place instruction behind found isText
  exact ⟨(start, stmt) :: earlier, first, inner, file, later, rfl, said⟩

theorem Printed.single {stmt : Stmt} {file : Option Expr} (printed : before.Printed before.code.size [])
    (isOutput : stmt.output? = some file) (grows : before.code.toList <+: after.code.toList) (routed : after.Routed)
    (calm : ¬Redirected after.code after.code.size)
    (items : ∀ place instruction, before.code.size ≤ place → after.code[place]? = some instruction →
      instruction.op.isText = true → selections after.code place = before.selected + if file.isSome then 1 else 0) :
    after.Printed before.code.size [(before.code.size, stmt)] := by
  have same : selections after.code before.code.size = before.selected := selections_kept grows (Nat.le_refl _)
  refine ⟨routed, calm, prefix_longer grows, by simp, fun place instruction behind found isText => ?_⟩
  refine ⟨[], before.code.size, stmt, file, [], rfl, behind, by simp, isOutput, ?_, ?_⟩
  · rw [Redirected, same]
    exact printed.calm
  · rw [same]
    exact items place instruction behind found isText

structure Covers (spans : List Span) (assembly : Assembly) : Prop extends Routed assembly where
  calm : ¬Redirected assembly.code assembly.code.size
  items : ∀ place instruction, assembly.code[place]? = some instruction → instruction.op.isText = true →
    ∃ span ∈ spans, span.Has place ∧ Item assembly.code span.places place

theorem empty_covers : Covers [] empty :=
  ⟨⟨fun _ _ placed => (nomatch placed), fun _ _ found => by simp [Assembly.empty] at found⟩, by decide,
    fun _ _ found => by simp [Assembly.empty] at found⟩

theorem Covers.add {spans : List Span} {span : Span} (covers : before.Covers spans)
    (grows : before.code.toList <+: after.code.toList) (printed : after.Printed before.code.size span.places)
    (first : span.first ≤ before.code.size) (stop : after.code.size ≤ span.stop) : after.Covers (spans ++ [span]) := by
  refine ⟨printed.toRouted, printed.calm, fun place instruction found isText => ?_⟩
  by_cases isEarly : place < before.code.size
  · obtain ⟨other, isSpan, inside, item⟩ := covers.items place instruction (found_before grows found isEarly) isText
    exact ⟨other, List.mem_append_left _ isSpan, inside, item.mono grows (Nat.le_of_lt isEarly)⟩
  · have isLate := Nat.not_lt.mp isEarly
    exact ⟨span, by simp, ⟨Nat.le_trans first isLate, Nat.lt_of_lt_of_le (found_below found) stop⟩,
      printed.items place instruction isLate found isText⟩

theorem Covers.spared {spans : List Span} (covers : before.Covers spans) (spares : Spares before after) :
    after.Covers spans := by
  have printed := spares.2 _ _ (covers.toRouted.printed covers.calm)
  refine ⟨printed.toRouted, printed.calm, fun place instruction found isText => ?_⟩
  by_cases isEarly : place < before.code.size
  · obtain ⟨span, isSpan, inside, item⟩ := covers.items place instruction (found_before spares.1 found isEarly) isText
    exact ⟨span, isSpan, inside, item.mono spares.1 (Nat.le_of_lt isEarly)⟩
  · exact absurd (printed.items place instruction (Nat.not_lt.mp isEarly) found isText) Item.nowhere

theorem push_writes (assembly : Assembly) (value : Value) : Writes assembly (assembly.emit (.pushConst value)) :=
  ⟨(emit_step assembly _).1.code, fun routed => ⟨routed.emit fun _ => .inl rfl, emit_selected assembly (.pushConst value)⟩⟩

theorem Printed.between {stmt : Stmt} {file : Expr} {valued written : Assembly}
    (printed : before.Printed before.code.size [])
    (isOutput : stmt.output? = some (some file)) (spares : Spares before valued) (computes : Writes before valued)
    (writes : Writes (valued.emit (.syscall Builtin.selectOutput.name)) written) :
    ((written.emit (.pushConst (.integer 0))).emit (.syscall Builtin.selectOutput.name)).Printed before.code.size
      [(before.code.size, stmt)] := by
  have calm := printed.calm
  have spared := spares.2 _ _ printed
  have opened := emit_selected valued (.syscall Builtin.selectOutput.name)
  obtain ⟨routed, same⟩ := writes.2 (spared.toRouted.emit fun redirected => absurd redirected spared.calm)
  obtain ⟨growsPushed, pushes⟩ := push_writes written (.integer 0)
  obtain ⟨routedPushed, samePushed⟩ := pushes routed
  have closed := emit_selected (written.emit (.pushConst (.integer 0))) (.syscall Builtin.selectOutput.name)
  rw [Op.selection_builtin, if_pos rfl, (computes.2 printed.toRouted).2] at opened
  rw [Op.selection_builtin, if_pos rfl, samePushed, same, opened] at closed
  have growsOpened := (emit_step valued (.syscall Builtin.selectOutput.name)).1.code
  have growsClosed := (emit_step (written.emit (.pushConst (.integer 0))) (.syscall Builtin.selectOutput.name)).1.code
  have growsLate := writes.1.trans (growsPushed.trans growsClosed)
  refine printed.single isOutput (computes.1.trans (growsOpened.trans growsLate)) ?_ ?_ ?_
  · refine routedPushed.emit fun _ => .inr (.inr ⟨Op.selection_builtin, written.code.size, written.locus, ?_, ?_⟩) <;>
      simp [Assembly.emit]
  · rw [Redirected, ← selected] at calm ⊢
    omega
  · intro place instruction behind found isText
    have isLate : valued.code.size < place := by
      -- Before the items the file is computed and selected, and nothing is printed.
      by_contra isEarly
      have below : place < (valued.emit (.syscall Builtin.selectOutput.name)).code.size := by
        simpa [Assembly.emit, Nat.lt_succ_iff] using isEarly
      obtain old | ⟨-, rfl⟩ := emit_found (found_before growsLate found below)
      · exact Item.nowhere (spared.items place instruction behind old isText)
      · exact absurd (Op.text_selects_not isText) (by simp [Op.selection_builtin])
    have inside : place ≤ (written.emit (.pushConst (.integer 0))).code.size := by
      simpa [Assembly.emit, Nat.lt_succ_iff] using found_below found
    rw [selections_kept growsClosed inside, selections_between (writes.1.trans growsPushed) (samePushed.trans same)
      (by simpa [Assembly.emit, Nat.succ_le_iff] using isLate) inside, opened]
    rfl

end Assembly

theorem Registry.sub_quiet {registry : Registry} {name : String} {builtin : Builtin} (named : SourceName name)
    (found : registry.sub? name = some builtin) : builtin.isQuiet = true := by
  have letter := (Registry.sub_letter named found).2
  cases builtin <;> first | rfl | exact absurd rfl letter

namespace Emit

variable {α : Type} {before after : Assembly} {noted : List (Nat × Stmt)}

theorem emit_spares (assembly : Assembly) {op : Op} (quiet : (!op.isText && !op.isSelection) = true) :
    assembly.Spares (assembly.emit op) :=
  ⟨(Assembly.emit_step assembly op).1.code, fun _ _ printed => printed.emit quiet⟩

theorem keeps_spares : Growing Op.isPlain Assembly.Spares where
  toStraight := by
    refine keeps_seen (fun before after code places => ?_) (fun _ _ _ => Assembly.Spares.trans) fun assembly op plain =>
      emit_spares assembly (Bool.and_eq_true_iff.mp plain).1
    exact ⟨code ▸ List.prefix_refl _, fun start noted printed => printed.view code places⟩
  data _ _ _ _ ran := by
    cases ran
    exact ⟨List.prefix_refl _, fun _ _ printed => printed.view rfl rfl⟩
  place _ _ _ _ ran :=
    ⟨(Assembly.place_step (run_place ran)).1.code, fun _ _ printed => printed.place (run_place ran)⟩
  trans _ _ _ := Assembly.Spares.trans

theorem keeps_sets {first last : Char} {ty : Ty} : Keeps Assembly.Spares Unit (op (.setDefaultType first last ty)) := by
  intro before _ _ ran
  cases ran
  exact emit_spares before rfl

theorem keeps_parameter {name : String} {ty : Ty} : Keeps Assembly.Spares Unit (op (.popParam name ty)) := by
  intro before _ _ ran
  cases ran
  exact emit_spares before rfl

theorem keeps_writes : Straight Op.isPrinting (Keeps Assembly.Writes) := by
  refine keeps_seen (fun before after code places => ?_) (fun _ _ _ early late => ?_) fun assembly op printing => ?_
  · exact ⟨code ▸ List.prefix_refl _, fun routed =>
      ⟨routed.view code places, by rw [Assembly.selected, code, Assembly.selected]⟩⟩
  · refine ⟨early.1.trans late.1, fun routed => ?_⟩
    obtain ⟨between, same⟩ := early.2 routed
    obtain ⟨last, still⟩ := late.2 between
    exact ⟨last, still.trans same⟩
  · refine ⟨(Assembly.emit_step assembly op).1.code, fun routed => ⟨routed.emit fun _ => ?_, ?_⟩⟩
    · exact (Bool.or_eq_true_iff.mp (Bool.and_eq_true_iff.mp printing).1).imp_right .inl
    · rw [Assembly.emit_selected, Op.printing_selects_not printing]
      rfl

theorem printed_redirected (context : EmitContext) {stmt : Stmt} {file : Option Expr}
    (isOutput : stmt.output? = some file)
    {write : Emit Unit} (writes : Keeps Assembly.Writes Unit write) (printed : before.Printed before.code.size [])
    (ran : (redirected context file write).run before = .ok ((), after)) :
    after.Printed before.code.size [(before.code.size, stmt)] := by
  cases file with
  | none =>
    obtain ⟨grows, written⟩ := writes before () after ran
    obtain ⟨routed, same⟩ := written printed.toRouted
    refine printed.single isOutput grows routed ?_ fun place instruction behind found _ => ?_
    · rw [Redirected, ← Assembly.selected, same]
      exact printed.calm
    · exact Assembly.selections_between grows same behind (Nat.le_of_lt (Assembly.found_below found))
  | some file =>
    obtain ⟨⟨⟩, opened, ranOpen, ran⟩ := run_seq ran
    obtain ⟨⟨⟩, valued, ranValue, ranSelect⟩ := run_seq ranOpen
    obtain ⟨⟨⟩, written, ranWrite, ran⟩ := run_seq ran
    obtain ⟨⟨⟩, pushed, ranPush, ranConsole⟩ := run_seq ran
    cases ranSelect
    cases ranPush
    cases ranConsole
    exact printed.between isOutput (closed_value keeps_spares.inner file (Expr.rooted_anywhere _) before () valued ranValue)
      (closed_value keeps_writes.any.inner file (Expr.rooted_anywhere _) before () valued ranValue)
        (writes _ () written ranWrite)

theorem keeps_silent (context : EmitContext) {stmt : Stmt} (locus : Locus) (leaf : stmt.isCompound = false)
    (silent : stmt.output? = none) (accepted : ∃ registry, stmt.AcceptedIn context.symbols registry) :
    Keeps Assembly.Spares Unit (Emit.stmt context locus stmt) := by
  cases stmt with
  | print _ _ _ _ | write _ _ => cases silent
  | cond _ | select _ _ | forLoop _ _ _ _ _ _ | whileLoop _ _ | doLoop _ _ _ => cases leaf
  | call name arguments =>
    obtain ⟨_, checked, rfl, named, -⟩ := accepted
    exact closed_call keeps_spares.toStraight.any heeds_anything fun builtin found =>
      closed_syscall keeps_spares.inner (Registry.sub_quiet named found)
  | _ => exact closed_simple keeps_spares.toClosed.any locus _ rfl heeds_anything fun _ _ _ => rfl

theorem printed_output (context : EmitContext) (locus : Locus) {stmt : Stmt} {file : Option Expr}
    (isOutput : stmt.output? = some file) {inner : List (Nat × Stmt)} (printed : before.Printed before.code.size [])
    (ran : (stmtPlaces context locus stmt).run before = .ok (inner, after)) :
    after.Printed before.code.size ((before.code.size, stmt) :: inner) := by
  cases stmt with
  | print chosen format items newline =>
    obtain ⟨⟨⟩, between, ranStmt, ran⟩ := run_seq ran
    cases ran
    exact printed_redirected context rfl
      (closed_print_items keeps_writes.any ((Stmt.print chosen format items newline).heeds_anything _ _)) printed ranStmt
  | write chosen sources =>
    obtain ⟨⟨⟩, between, ranStmt, ran⟩ := run_seq ran
    cases ran
    exact printed_redirected context rfl
      (closed_write_items keeps_writes.any ((Stmt.write chosen sources).heeds_anything _ _)) printed ranStmt
  | _ => cases isOutput

theorem printed_block (context : EmitContext) {checked : CheckContext} {block : Block}
    (accepted : block.Accepted context.symbols checked) {start : Nat} {places : List (Nat × Stmt)}
    (printed : before.Printed start noted) (ran : (blockPlaces context block).run before = .ok (places, after)) :
    after.Printed start (noted ++ places) := by
  have walk : Walk context (fun _ => true) (fun stmt => ∃ registry, stmt.AcceptedIn context.symbols registry) Assembly.Spares
      fun places before after => before.code.toList <+: after.code.toList ∧
        (before.Printed before.code.size [] → after.Printed before.code.size places) := by
    refine keeps_spares.toStraight.gathers keeps_spares.place (fun spares => ⟨spares.1, spares.2 _ _⟩)
      (fun {_ _ _ _ _} early late => ?_)
      fun {loops locus stmt inner before after} accepted ran parts => ?_
    · exact ⟨early.1.trans late.1, fun printed => (early.2 printed).join late.1 (late.2 (early.2 printed).fresh)⟩
    · refine ⟨(keeps_stmt_places keeps_step.body _ locus stmt before inner after ran).1.code, fun printed => ?_⟩
      cases isOutput : stmt.output? with
      | some file => exact printed_output { context with loops } locus isOutput printed ran
      | none =>
        cases compound : stmt.isCompound with
        | true => exact ((parts compound).2 printed).cons stmt
        | false =>
          rw [(leaf_places compound ran).1]
          have plain := keeps_silent { context with loops } locus compound isOutput accepted before () after
            (run_forget (forget_stmt { context with loops } locus stmt) ran)
          exact (plain.2 _ _ printed).cons stmt
  obtain ⟨-, _, rfl, grows, items⟩ := walk.block context.loops block heeds_anything
    (fun part inside => ⟨_, Block.Accepted.statements block checked accepted part inside⟩) before places after ran
  exact printed.join grows (items printed.fresh)

section Routines

variable {context : EmitContext}

theorem printed_body {entry : ProcedureEntry} {routine : Routine} {places : List (Nat × Stmt)}
    (accepted : routine.body.Accepted context.symbols (routine.context context.registry))
    (printed : before.Printed before.code.size [])
    (ran : (procedureBody context entry routine).run before = .ok (places, after)) :
    after.Printed before.code.size places := by
  have inner {start : Assembly} (printed : start.Printed before.code.size []) (ran : (do
      let exit ← newLabel
      let places ← blockPlaces { context with exit := some exit } routine.body
      place exit
      return places : Emit (List (Nat × Stmt))).run start = .ok (places, after)) : after.Printed before.code.size places := by
    obtain ⟨exit, labelled, ranLabel, ran⟩ := run_seq ran
    obtain ⟨inner, between, body, ran⟩ := run_seq ran
    obtain ⟨⟨⟩, placed, ranPlace, ran⟩ := run_seq ran
    cases ran
    have fresh := (keeps_spares.newLabel start exit labelled ranLabel).2 _ _ printed
    exact (printed_block { context with exit := some exit } accepted fresh body).place (run_place ranPlace)
  obtain ⟨⟨⟩, bound, params, ran⟩ := run_seq ran
  have started := (closed_each keeps_spares.toStraight (fun _ _ => keeps_parameter) before () bound params).2 _ _ printed
  dsimp only at ran
  split at ran
  · obtain ⟨⟨⟩, declared, ranDim, ran⟩ := run_seq ran
    exact inner ((keeps_spares.op _ rfl bound () declared ranDim).2 _ _ started) ran
  · exact inner started ran

theorem covers_procedure {routine : Routine} (done : List Span)
    (accepted : routine.body.Accepted context.symbols (routine.context context.registry)) :
    Reaches (Assembly.Covers done) (procedureSpan context routine) fun span => Assembly.Covers (done ++ [span]) := by
  intro before span after covers ran
  obtain ⟨entry, skip, start, places, last, closed, -, head, body, tail, placed, rfl⟩ := procedure_span_cases ran
  have started := covers.spared (keeps_procedure_head keeps_spares routine before skip start head)
  have printed := printed_body accepted (started.toRouted.printed started.calm) body
  obtain ⟨growsTail, spares⟩ := keeps_procedure_tail keeps_spares routine last () closed tail
  have growsBody := (keeps_procedure_body keeps_step.body keeps_step.parameter context entry routine start places last
    body).1.code
  have growsPlaced := (Assembly.place_step placed).1.code
  refine started.add (growsBody.trans (growsTail.trans growsPlaced)) ((spares _ _ printed).place placed) (Nat.le_refl _) ?_
  obtain ⟨label, -, -, rfl⟩ := Assembly.place_cases placed
  exact Nat.le_refl _

theorem covers_main {main : Block} {after : Assembly} {span : Span}
    (accepted : main.Accepted context.symbols ((Routine.main main).context context.registry))
    (ran : (mainSpan context main).run .empty = .ok (span, after)) : after.Covers [span] := by
  obtain ⟨start, places, last, letters, body, rfl, rfl⟩ := main_span_cases ran
  have started := Assembly.empty_covers.spared
    (keeps_letters keeps_spares (fun _ _ _ => keeps_sets) context main .empty () start letters)
  have printed := printed_block context accepted (started.toRouted.printed started.calm) body
  have grows := (keeps_block_places keeps_step.body context main start places last body).1.code
  exact started.add (grows.trans (Assembly.emit_step last .stop).1.code) (printed.emit rfl) (Nat.zero_le _) (Nat.le_refl _)

theorem covers_layout {program : Program} {symbols : SymbolTable} {registry : Registry} {spans : List Span}
    {whole : Assembly} (accepted : program.Accepted symbols registry)
    (ran : (layout (Program.emitContext symbols registry) program).run .empty = .ok (spans, whole)) :
    whole.Covers spans := by
  obtain ⟨main, others, between, last, ranMain, ranOthers, rfl, rfl⟩ := layout_cases ran
  have first : between.Covers [main] := covers_main (accepted.bodies _ List.mem_cons_self) ranMain
  have each (routine : Routine) (isProcedure : routine ∈ program.procedures) (done : List Span) :
      Reaches (Assembly.Covers done) (procedureSpan (Program.emitContext symbols registry) routine)
        fun span => Assembly.Covers (done ++ [span]) :=
    covers_procedure done (accepted.bodies routine (List.mem_cons_of_mem _ isProcedure))
  have all : last.Covers ([main] ++ others) := reaches_map each [main] between others last first ranOthers
  split
  · exact all
  · exact all.spared (keeps_spares.op .stop rfl last () _ rfl)

end Routines

end Emit

namespace Image

/-- Nothing goes to where the code of an image is redirected, and only calls lead out of there. -/
structure Routed (image : Image) (spans : List Span) : Prop where
  targets : ∀ (place : Nat) (instruction : Instruction) (target : Nat), image.instructions[place]? = some instruction →
    instruction.op.address? = some (.resolved target) → ¬Redirected image.instructions target
  inside : ∀ place instruction, image.instructions[place]? = some instruction → Redirected image.instructions place →
    Inside image.instructions place instruction.op
  calm : ¬Redirected image.instructions image.instructions.size
  items : ∀ place instruction, image.instructions[place]? = some instruction → instruction.op.isText = true →
    ∃ span ∈ spans, span.Has place ∧ Item image.instructions span.places place

end Image

namespace Assembly

variable {whole : Assembly} {image : Image}

theorem Linked.found (linked : whole.Linked image) (size : image.instructions.size = whole.code.size) {place : Nat}
    {instruction : Instruction} (found : image.instructions[place]? = some instruction) :
    ∃ op code data, whole.code[place]? = some ⟨op, instruction.locus⟩ ∧ instruction.op = op.retarget code data ∧
      ∀ target, op.address? = some target →
        whole.resolve LabelPlace.code instruction.locus target = .ok (code target) := by
  obtain ⟨⟨op, locus⟩, source, links⟩ := linked.source size found
  obtain ⟨code, data, rfl, resolves, -⟩ := link_cases links
  exact ⟨op, code, data, source, rfl, resolves⟩

theorem retarget_selects (op : Op) (code data : Target → Target) :
    (op.retarget code data).isSelection = op.isSelection ∧ (op.retarget code data).isText = op.isText ∧
      (op.retarget code data).isInner = op.isInner := by
  cases op <;> exact ⟨rfl, rfl, rfl⟩

theorem Linked.selections (linked : whole.Linked image) (size : image.instructions.size = whole.code.size)
    (place : Nat) :
    selections image.instructions place = BasicLang.selections whole.code place := by
  induction place with
  | zero => rfl
  | succ place ih =>
    cases found : image.instructions[place]? with
    | none =>
      have beyond : whole.code[place]? = none :=
        Array.getElem?_eq_none (size ▸ Array.getElem?_eq_none_iff.mp found)
      rw [selections_past found, selections_past beyond, ih]
    | some instruction =>
      obtain ⟨op, code, data, source, isLinked, -⟩ := linked.found size found
      rw [selections_next found, selections_next source, ih, isLinked, (retarget_selects op code data).1]

theorem Covers.routed {spans : List Span} (covers : whole.Covers spans) (within : whole.Within)
    (linked : whole.Linked image)
    (size : image.instructions.size = whole.code.size) : image.Routed spans := by
  have same := linked.selections size
  -- Linking keeps the selections of the code, so that the same places are redirected in the image.
  have redirects (place : Nat) : Redirected image.instructions place ↔ Redirected whole.code place := by
    rw [Redirected, same, Redirected]
  refine ⟨fun place instruction target found isTarget => ?_, fun place instruction found redirected => ?_, ?_,
    fun place instruction found isText => ?_⟩
  · obtain ⟨op, code, data, source, isLinked, resolves⟩ := linked.found size found
    have unlinked := within.targets _ (Array.mem_of_getElem? source)
    rw [isLinked, Op.retarget_address, Option.map_eq_some_iff] at isTarget
    obtain ⟨label, isLabel, isTarget⟩ := isTarget
    cases label with
    | resolved next => simp [Op.isUnlinked, isLabel] at unlinked
    | label id =>
      obtain ⟨next, placed, isNext⟩ := resolve_label_place (resolves _ isLabel)
      obtain rfl := Target.resolved.inj (isTarget.symm.trans isNext)
      exact mt (redirects target).mp (covers.labels id target placed).2
  · obtain ⟨op, code, data, source, isLinked, -⟩ := linked.found size found
    obtain ⟨selects, prints, computes⟩ := retarget_selects op code data
    rw [isLinked, Inside, selects, prints, computes]
    obtain inner | text | ⟨isSelection, earlier, locus, isNext, pushed⟩ :=
      covers.inside place _ source ((redirects place).mp redirected)
    · exact .inl inner
    · exact .inr (.inl text)
    · obtain ⟨result, isResult, inImage⟩ := linked earlier _ pushed
      cases isResult
      exact .inr (.inr ⟨isSelection, earlier, locus, isNext, inImage⟩)
  · rw [size]
    exact mt (redirects _).mp covers.calm
  · obtain ⟨op, code, data, source, isLinked, -⟩ := linked.found size found
    rw [isLinked, (retarget_selects op code data).2.1] at isText
    obtain ⟨span, isSpan, inside, earlier, start, stmt, file, later, isNoted, starts, isLast, isOutput, calm, counted⟩ :=
      covers.items place _ source isText
    refine ⟨span, isSpan, inside, earlier, start, stmt, file, later, isNoted, starts, isLast, isOutput, ?_, ?_⟩
    · exact mt (redirects start).mp calm
    · rw [same, same, counted]

end Assembly

theorem Program.Accepted.routed {program : Program} {symbols : SymbolTable} {registry : Registry} {image : Image}
    (accepted : program.Accepted symbols registry) (coded : program.image symbols registry = .ok image)
    {spans : List Span} (isLayout : program.layout? symbols registry = some spans) : image.Routed spans := by
  obtain ⟨whole, -, ranLayout, links, size, -⟩ := Program.laid_out coded isLayout
  obtain ⟨last, within, isLast⟩ := Emit.layout_ends ranLayout
  refine (Emit.covers_layout accepted ranLayout).routed ?_ links size
  rw [isLast]
  exact within.emit rfl

end BasicLang
