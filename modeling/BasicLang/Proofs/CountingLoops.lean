import BasicLang.Device.Bench
import BasicLang.Proofs.Machine.Rounds
import BasicLang.Proofs.NameResolution

set_option autoImplicit false

namespace BasicLang

section SharedNames

mutual

theorem Stmt.collect_holds {pick : Stmt → List String} {holds : String → Prop}
    (each : ∀ stmt : Stmt, stmt.WellFormed → ∀ name ∈ pick stmt, holds name) (stmt : Stmt) (formed : stmt.WellFormed) :
    ∀ name ∈ stmt.collect pick, holds name := by
  cases stmt with
  | cond arms => exact Arms.collect_holds each arms formed
  | select test cases => exact Cases.collect_holds each cases formed.2
  | forLoop counter first last step body next => exact Block.collect_holds each body formed.2.2.2.2
  | whileLoop condition body => exact Block.collect_holds each body formed.2
  | doLoop before body after => exact Block.collect_holds each body formed.2.1
  | _ => exact each _ formed

theorem Block.collect_holds {pick : Stmt → List String} {holds : String → Prop}
    (each : ∀ stmt : Stmt, stmt.WellFormed → ∀ name ∈ pick stmt, holds name) (block : Block) (formed : block.WellFormed) :
    ∀ name ∈ block.collect pick, holds name := by
  cases block with
  | nil => exact nofun
  | cons locus head tail =>
    exact List.forall_mem_append.mpr ⟨Stmt.collect_holds each head formed.1, Block.collect_holds each tail formed.2⟩

theorem Arms.collect_holds {pick : Stmt → List String} {holds : String → Prop}
    (each : ∀ stmt : Stmt, stmt.WellFormed → ∀ name ∈ pick stmt, holds name) (arms : Arms) (formed : arms.WellFormed) :
    ∀ name ∈ arms.collect pick, holds name := by
  cases arms with
  | none => exact nofun
  | otherwise body => exact Block.collect_holds each body formed
  | arm condition body rest =>
    exact List.forall_mem_append.mpr ⟨Block.collect_holds each body formed.2.1, Arms.collect_holds each rest formed.2.2⟩

theorem Cases.collect_holds {pick : Stmt → List String} {holds : String → Prop}
    (each : ∀ stmt : Stmt, stmt.WellFormed → ∀ name ∈ pick stmt, holds name) (cases : Cases) (formed : cases.WellFormed) :
    ∀ name ∈ cases.collect pick, holds name := by
  cases cases with
  | none => exact nofun
  | otherwise body => exact Block.collect_holds each body formed
  | clause locus patterns body rest =>
    exact List.forall_mem_append.mpr ⟨Block.collect_holds each body formed.2.1, Cases.collect_holds each rest formed.2.2⟩

end

theorem Stmt.shares_sourced (inMain : Bool) (stmt : Stmt) (formed : stmt.WellFormed) :
    ∀ name ∈ stmt.shares inMain, SourceName name := by
  intro name isShared
  cases stmt with
  | dim shared decls =>
    rw [shares] at isShared
    split at isShared
    · obtain ⟨decl, isDecl, rfl⟩ := List.mem_map.mp isShared
      exact (formed decl isDecl).1
    · cases isShared
  | const other value =>
    rw [shares] at isShared
    split at isShared
    · exact List.mem_singleton.mp isShared ▸ formed.1
    · cases isShared
  | _ => cases isShared

theorem Program.shared_not_made {program : Program} {registry : Registry} {image : Image} (wellFormed : program.WellFormed)
    (quiet : (program.check registry).diagnostics = [])
    (coded : (program.check registry).program.image (program.check registry).symbols registry = .ok image) :
    ∀ name ∈ image.shared, isMade name = false := by
  intro name isShared
  obtain ⟨-, -, -, -, -, -, same⟩ := Program.image_inversion coded
  have split : program.routines = [] ++ .main program.main :: program.procedures := rfl
  have scopes := Program.check_scopes wellFormed quiet split
  rw [same, Table.mem_names_iff] at isShared
  exact (Block.collect_holds (Stmt.shares_sourced _) program.main wellFormed.main name
    ((scopes.final name).mp isShared)).not_made

end SharedNames

namespace Count

variable {count : Count} {early late : Nat}

theorem in_range_between (first : count.ty.InRange (count.value 0)) (last : count.ty.InRange (count.value late))
    (sooner : early ≤ late) : count.ty.InRange (count.value early) := by
  have between : count.value 0 ≤ count.value early ∧ count.value early ≤ count.value late ∨
      count.value late ≤ count.value early ∧ count.value early ≤ count.value 0 := by
    have fewer : (early : Int) ≤ late := by exact_mod_cast sooner
    have some : (0 : Int) ≤ early := Int.natCast_nonneg early
    simp only [value, Nat.cast_zero, Int.zero_mul]
    rcases Int.le_total 0 count.step with upwards | downwards
    · have more := Int.mul_le_mul_of_nonneg_right fewer upwards
      have least := Int.mul_nonneg some upwards
      omega
    · have more := Int.mul_le_mul_of_nonpos_right fewer downwards
      have least := Int.mul_nonpos_of_nonneg_of_nonpos some downwards
      omega
  cases isType : count.ty with
  | integer | long =>
    rw [isType] at first last
    simp only [Ty.InRange] at first last ⊢
    omega
  | _ =>
    rw [isType] at first
    exact first.elim

theorem Proper.in_range_within (proper : count.Proper) (limit : count.ty.InRange count.last)
    (within : early < count.rounds) : count.ty.InRange (count.value early) := by
  have isWithin := proper.lt_rounds.mp within
  have first := proper.first
  have some : (0 : Int) ≤ early := Int.natCast_nonneg early
  have between : count.first ≤ count.value early ∧ count.value early ≤ count.last ∨
      count.last ≤ count.value early ∧ count.value early ≤ count.first := by
    rw [Within] at isWithin
    simp only [value] at isWithin ⊢
    split at isWithin
    · next upwards =>
      have least := Int.mul_nonneg some upwards
      omega
    · next downwards =>
      have least := Int.mul_nonpos_of_nonneg_of_nonpos some (Int.le_of_lt (Int.not_le.mp downwards))
      omega
  cases isType : count.ty with
  | integer | long =>
    rw [isType] at first limit
    simp only [Ty.InRange] at first limit ⊢
    omega
  | _ =>
    rw [isType] at first
    exact first.elim

end Count

namespace Loop

variable {σ : Type} {setup : Setup σ} {image : Image} {symbols : SymbolTable} {spans : List Span} {base : List Frame}
  {machine : Machine σ} {loop : Loop} {count : Count} {ran rounds : Nat}

structure Abides (setup : Setup σ) (loop : Loop) (count : Count) (ran rounds : Nat) (machine : Machine σ) : Prop where
  most : rounds ≤ count.rounds
  -- It does not go round without its body.
  ran : ran ≤ 12 + 8 * rounds
  inRange : ∀ round < rounds, count.ty.InRange (count.value round)
  -- It waits for an expression or the body, or is left, or has the next instruction.
  place : loop.Own machine.next ∨ machine.next ∈ [loop.start + 1, loop.assigned + 3, loop.ended + 3, loop.body, loop.exit]
  goes : loop.Own machine.next → machine.phase = .idle ∨ machine.phase = .running →
    (Run.ready setup machine).frames = machine.frames →
      (∃ after, machine.Advances setup after) ∨ Overflows setup loop count machine rounds
  stops : Overflows setup loop count machine rounds →
    ¬count.ty.InRange (count.value count.rounds) ∧ (count.ty.InRange count.last → rounds = count.rounds)
  leaves : machine.next = loop.exit → rounds = count.rounds ∧ count.ty.InRange (count.value rounds) ∧
    machine.variableValue loop.counter = count.ty.whole (count.value rounds)

theorem Overflows.last (proper : count.Proper) (overflows : Overflows setup loop count machine rounds) :
    ¬count.ty.InRange (count.value count.rounds) ∧ (count.ty.InRange count.last → rounds = count.rounds) := by
  obtain ⟨most, beyond⟩ := overflows.beyond
  have first : count.ty.InRange (count.value 0) := count.value_zero ▸ proper.first
  refine ⟨fun final => beyond (Count.in_range_between first final most), fun limit => ?_⟩
  refine Nat.le_antisymm most (Nat.not_lt.mp fun fewer => ?_)
  exact beyond (proper.in_range_within limit fewer)

theorem Stage.in_range (proper : count.Proper) (stage : Stage loop count base machine ran rounds) :
    rounds ≤ count.rounds ∧ ran ≤ 12 + 8 * rounds ∧ ∀ round < rounds, count.ty.InRange (count.value round) := by
  have first : count.ty.InRange (count.value 0) := count.value_zero ▸ proper.first
  have before {round late : Nat} (last : count.ty.InRange (count.value late)) (sooner : round < late + 1) :
      count.ty.InRange (count.value round) := Count.in_range_between first last (Nat.le_of_lt_succ sooner)
  cases stage with
  | tests _ _ settled most | counter _ _ _ settled most | limit _ _ _ settled most | stride _ _ _ settled most =>
    exact ⟨most, by omega, fun round sooner => before settled.counts.1 (by omega)⟩
  | body _ _ settled fewer | tail _ _ settled fewer | target _ _ _ _ settled fewer | advances _ _ _ _ settled fewer =>
    exact ⟨fewer, by omega, fun round sooner => before settled.counts.1 sooner⟩
  | again _ _ settled fewer => exact ⟨fewer, by omega, fun round sooner => before settled.counts.1 (by omega)⟩
  | exit _ settled => exact ⟨Nat.le_refl _, by omega, fun round sooner => before settled.counts.1 (by omega)⟩
  | _ => exact ⟨Nat.zero_le _, by omega, fun round none => absurd none (Nat.not_lt_zero _)⟩

theorem Stage.place (loops : image.Loops loop) (stage : Stage loop count base machine ran rounds) :
    loop.Own machine.next ∨ machine.next ∈ [loop.start + 1, loop.assigned + 3, loop.ended + 3, loop.body, loop.exit] := by
  have order := in_order loops
  simp only [Own, List.mem_cons, List.not_mem_nil, or_false]
  cases stage <;> omega

theorem Stage.abides (receives : image.Receives symbols spans) (loops : image.Loops loop) (proper : count.Proper)
    (above : machine.Above setup.maxDepth image spans base) (stage : Stage loop count base machine ran rounds) :
    loop.Abides setup count ran rounds machine where
  most := (stage.in_range proper).1
  ran := (stage.in_range proper).2.1
  inRange := (stage.in_range proper).2.2
  place := stage.place loops
  goes := fun isOwn goes calm => by
    obtain ⟨after, more, advances, -⟩ | overflows := stage.own receives loops above goes calm proper isOwn
    · exact .inl ⟨after, advances⟩
    · exact .inr overflows
  stops := fun overflows => overflows.last proper
  leaves := fun left => by
    have order := in_order loops
    cases stage with
    | exit place settled => exact ⟨rfl, settled.counts⟩
    | _ => omega

end Loop

/-- In an accepted program every `FOR` statement has the code of a loop. Let the machine come there, whatever the host has
done before, with a counter of a whole-number type, let the expressions leave whole numbers of which the first fits the
counter, and let nothing else change the counter or leave the loop. Then the body is entered with the first, the second and
the further numbers, at most as often as the limit says. The loop is left after the last of them with the next number in the
counter, and if that does not fit, the loop stops with error 6 and the counter stays as it is. -/
theorem for_loop_counts (source : String) (registry : Registry) (program : Program) (image : Image)
    (parsed : parse (tokenize source).1 = .ok program) (quiet : (program.check registry).diagnostics = [])
    (coded : (program.check registry).program.image (program.check registry).symbols registry = .ok image) :
    ∃ spans, (program.check registry).program.layout? (program.check registry).symbols registry = some spans ∧
      ∀ span ∈ spans, ∀ place counter first last step body next,
        (place, Stmt.forLoop counter first last step body next) ∈ span.places →
          ∃ loop : Loop, loop.start = place ∧ loop.counter = counter ∧ image.LaysOut loop ∧
            ∀ (σ : Type) (setup : Setup σ) (world : σ) (calls : List HostCall),
              (∀ call ∈ calls, ∀ other, call ≠ .load other) →
              let start := (Machine.create world).afterAll setup (.load image :: calls)
              start.phase = .idle ∨ start.phase = .running → start.next = place →
              ∀ count : Count, count.Proper → (start.variableValue counter).ty = count.ty →
                ∀ ran values machine, loop.Course setup count start ran values machine →
                  values = count.values values.length ∧ loop.Abides setup count ran values.length machine := by
  obtain ⟨spans, isLayout⟩ := Program.layout_of_image coded
  have wellFormed := parse_well_formed (tokenize_lexed source) parsed
  have accepted := Program.check_accepted wellFormed quiet
  have contained := accepted.contained coded isLayout
  have receives := accepted.receives coded isLayout
  refine ⟨spans, isLayout, ?_⟩
  intro span isSpan place counter first last step body next isLoop
  obtain ⟨loop, rfl, rfl, loops⟩ := accepted.loops coded isLayout (Program.shared_not_made wellFormed quiet coded) span isSpan
    place counter first last step body next isLoop
  refine ⟨loop, rfl, rfl, loops.toLaysOut, ?_⟩
  intro σ setup world calls sameImage start goes atStart count proper isCounter ran values machine course
  have past : ¬image.Binds start.next := by
    rintro ⟨name, ty, locus, binds⟩
    obtain ⟨locus, refers⟩ := atStart ▸ loops.refers
    rw [refers] at binds
    cases binds
  have above : start.Above setup.maxDepth image spans start.frames :=
    Machine.loaded_above setup contained world sameImage past
  obtain ⟨above, rounds, rfl, stage⟩ := course.stage contained receives loops proper above atStart isCounter
  rw [Count.length_values]
  exact ⟨rfl, stage.abides receives loops proper above⟩

section Following

variable {σ : Type} {setup : Setup σ} {loop : Loop} {count : Count} {base : List Frame} {goal fuel : Nat}
  {start first last machine after : Machine σ}

namespace Loop

instance (loop : Loop) : DecidablePred loop.Own := fun place => by
  unfold Own
  infer_instance

instance (setup : Setup σ) (loop : Loop) (base : List Frame) : DecidablePred (loop.Aside setup base) := fun machine => by
  unfold Aside
  infer_instance

instance (loop : Loop) (last after : Machine σ) : Decidable (loop.Returns last after) :=
  decidable_of_iff (after.frames = last.frames ∧ after.lookup? loop.counter = last.lookup? loop.counter ∧
      ∀ name ∈ [loop.counter, loop.lastName, loop.stepName], (after.variableValue name).ty = (last.variableValue name).ty)
    ⟨fun ⟨frames, counter, types⟩ => ⟨frames, counter, types⟩, fun returns => ⟨returns.frames, returns.counter, returns.types⟩⟩

def passing (setup : Setup σ) (loop : Loop) (base : List Frame) (goal : Nat) : Nat → Machine σ → Option (Machine σ)
  | 0, _ => none
  | fuel + 1, machine =>
    if machine.next = goal then some machine
    else if loop.Aside setup base machine then passing setup loop base goal fuel ((Run.step setup).on machine).2
    else none

theorem passing_onward (onward : Machine.Onward setup (loop.Aside setup base) first machine)
    (passes : loop.passing setup base goal fuel machine = some after) :
    Machine.Onward setup (loop.Aside setup base) first after ∧ after.next = goal := by
  induction fuel generalizing machine with
  | zero => cases passes
  | succ fuel ih =>
    rw [passing] at passes
    split at passes
    · next here => exact Option.some.inj passes ▸ ⟨onward, here⟩
    · split at passes
      · next isAside => exact ih (onward.step isAside) passes
      · cases passes

def sameNumber : Value → Value → Bool
  | .integer left, .integer right => left = right
  | .long left, .long right => left = right
  | _, _ => false

theorem same_number {left right : Value} (same : sameNumber left right = true) : left = right := by
  unfold sameNumber at same
  split at same
  · exact congrArg Value.integer (of_decide_eq_true same)
  · exact congrArg Value.long (of_decide_eq_true same)
  · cases same

def found? (last after : Machine σ) : Option (Value × Int) :=
  match last.stack, after.stack with
  | [.reference cell], [.value (.integer number), .reference other] =>
    if cell = other then some (.integer number, number.toInt) else none
  | [.reference cell], [.value (.long number), .reference other] =>
    if cell = other then some (.long number, number.toInt) else none
  | _, _ => none

theorem found_left {value : Value} {number : Int} (found : found? last after = some (value, number)) :
    after.stack = .value value :: last.stack ∧ value.toDouble? = some (Double.ofInt number) ∧
      Ty.double.convert value = .ok (.double (Double.ofInt number)) := by
  unfold found? at found
  split at found
  · next isLast isAfter =>
    split at found
    · next same =>
      cases found
      exact ⟨by rw [isAfter, isLast, same], rfl, rfl⟩
    · cases found
  · next isLast isAfter =>
    split at found
    · next same =>
      cases found
      exact ⟨by rw [isAfter, isLast, same], rfl, rfl⟩
    · cases found
  · cases found

def finding (loop : Loop) (count : Count) (last after : Machine σ) (number : Int) : Prop :=
  last.next = loop.start + 1 ∧ after.next = loop.assigned ∧ number = count.first ∨
    sameNumber (after.variableValue loop.counter) (last.variableValue loop.counter) = true ∧
      (last.next = loop.assigned + 3 ∧ after.next = loop.ended ∧ number = count.last ∨
        last.next = loop.ended + 3 ∧ after.next = loop.stepped ∧ number = count.step)

instance (loop : Loop) (count : Count) (last after : Machine σ) (number : Int) :
    Decidable (loop.finding count last after number) := by
  unfold finding
  infer_instance

theorem finding_finds {value : Value} {number : Int} (found : found? last after = some (value, number))
    (finding : loop.finding count last after number) : loop.Finds count last after := by
  obtain ⟨left, isNumber, converted⟩ := found_left found
  rcases finding with ⟨starts, ends, rfl⟩ | ⟨same, ⟨starts, ends, rfl⟩ | ⟨starts, ends, rfl⟩⟩
  · exact .first value starts ends left isNumber
  · exact .last value starts ends left converted (same_number same)
  · exact .step value starts ends left converted (same_number same)

def follow (setup : Setup σ) (loop : Loop) (count : Count) (start : Machine σ) :
    Nat → Nat × List Value × Machine σ → Option (Nat × List Value × Machine σ)
  | 0, state => some state
  | turns + 1, (ran, values, machine) =>
    if loop.Own machine.next then
      match (Run.step setup).on machine with
      | (.ok true, after) =>
        if (Run.ready setup machine).frames = machine.frames then
          follow setup loop count start turns (ran + 1, values ++ loop.entered after, after)
        else none
      | _ => none
    else if machine.next = loop.body then
      match loop.passing setup start.frames loop.tail 10 machine with
      | some after =>
        if after.scope = scopeIn start.frames ∧
            sameNumber (after.variableValue loop.counter) (machine.variableValue loop.counter) = true then
          follow setup loop count start turns (ran, values, after)
        else none
      | none => none
    else if loop.Aside setup start.frames machine ∧ loop.Returns machine ((Run.step setup).on machine).2 then
      match found? machine ((Run.step setup).on machine).2 with
      | some (_, number) =>
        if loop.finding count machine ((Run.step setup).on machine).2 number then
          follow setup loop count start turns (ran, values, ((Run.step setup).on machine).2)
        else none
      | none => none
    else none

theorem follow_course {turns ran behind : Nat} {values entered : List Value}
    (course : loop.Course setup count start ran values machine)
    (follows : loop.follow setup count start turns (ran, values, machine) = some (behind, entered, after)) :
    loop.Course setup count start behind entered after := by
  -- Each turn is an instruction of the loop itself, a run of its body or a call from an expression.
  induction turns generalizing ran values machine with
  | zero =>
    cases follows
    exact course
  | succ turns ih =>
    rw [follow] at follows
    split at follows
    · next isOwn =>
      split at follows
      · next next stepped =>
        split at follows
        · next calm => exact ih (course.own isOwn ⟨calm, stepped⟩) follows
        · cases follows
      · cases follows
    · split at follows
      · next atBody =>
        split at follows
        · next behind passes =>
          split at follows
          · next same =>
            obtain ⟨onward, atTail⟩ := passing_onward .refl passes
            exact ih (course.body atBody onward atTail same.1 (same_number same.2)) follows
          · cases follows
        · cases follows
      · split at follows
        · next returns =>
          split at follows
          · next found =>
            split at follows
            · next finding =>
              exact ih (course.expression (.step .refl returns.1) returns.2 (finding_finds found finding)) follows
            · cases follows
          · cases follows
        · cases follows

end Loop

end Following

def sampleLoop (first last : String) : String :=
  "FOR I% = " ++ first ++ " TO " ++ last ++ "\nPRINT I%\nNEXT I%\n"

section Sample

def Op.isDeclaration : Op → Bool
  | .dim _ _ => true
  | _ => false

def Op.isTest : Op → Bool
  | .forLoop _ => true
  | _ => false

def Op.isAdvance : Op → Bool
  | .forStep => true
  | _ => false

namespace Image

variable {image : Image} {place : Nat} {op : Op} {loop : Loop}

def placesOf (image : Image) (pick : Op → Bool) : List Nat :=
  (List.range image.instructions.size).filter fun place => image.instructions[place]?.any fun instruction => pick instruction.op

theorem mem_places_of {pick : Op → Bool} (fetches : image.Fetches place op) (picked : pick op = true) :
    place ∈ image.placesOf pick := by
  obtain ⟨locus, found⟩ := fetches
  have below := (Array.getElem?_eq_some_iff.mp found).1
  exact List.mem_filter.mpr ⟨List.mem_range.mpr below, by rw [found]; exact picked⟩

def declaredAt (image : Image) (place : Nat) : String :=
  match image.instructions[place]? with
  | some ⟨.dim name _, _⟩ => name
  | _ => ""

def sampled (image : Image) : Loop := ⟨"I%", image.declaredAt 3, image.declaredAt 7, 0, 2, 6, 10, 18⟩

def isSample (image : Image) : Prop :=
  image.placesOf Op.isDeclaration = [3, 7] ∧ image.placesOf Op.isTest = [14] ∧ image.placesOf Op.isAdvance = [20]

instance (image : Image) : Decidable image.isSample := by
  unfold isSample
  infer_instance

theorem LaysOut.is_sampled (laid : image.LaysOut loop) (isSample : image.isSample) (start : loop.start = 0)
    (counter : loop.counter = "I%") : loop = image.sampled := by
  obtain ⟨declared, tested, advanced⟩ := isSample
  have first : loop.assigned + 1 ∈ image.placesOf Op.isDeclaration := mem_places_of laid.declaresLast rfl
  have second : loop.ended + 1 ∈ image.placesOf Op.isDeclaration := mem_places_of laid.declaresStep rfl
  have test : loop.top + 1 + 1 + 1 ∈ image.placesOf Op.isTest := mem_places_of laid.tests.tail.tail.tail.head rfl
  have advance : loop.tail + 1 + 1 ∈ image.placesOf Op.isAdvance := mem_places_of laid.advances.tail.tail.head rfl
  rw [declared] at first second
  rw [tested] at test
  rw [advanced] at advance
  have apart := laid.ended
  have top : loop.top = loop.stepped + 1 := rfl
  simp only [List.mem_cons, List.not_mem_nil, or_false] at first second test advance
  obtain ⟨locus, last⟩ := laid.declaresLast
  obtain ⟨other, step⟩ := laid.declaresStep
  obtain ⟨_, _, _, _, assigned, ended, stepped, tail⟩ := loop
  obtain rfl : assigned = 2 := by dsimp only at *; omega
  obtain rfl : ended = 6 := by dsimp only at *; omega
  obtain rfl : stepped = 10 := by dsimp only at *; omega
  obtain rfl : tail = 18 := by dsimp only at *; omega
  rw [sampled, declaredAt, declaredAt, last, step, ← start, ← counter]

end Image

def Stmt.isLoop (counter : String) : Stmt → Bool
  | .forLoop name _ _ _ _ _ => name = counter
  | _ => false

def sampleStart (image : Image) : Machine Bench :=
  (Machine.create Bench.empty).afterAll (.ofDevices Bench.bare .standard) [.load image]

def sampleCount (first last : Int) : Count := ⟨.integer, first, last, 1⟩

def followed (count : Count) (turns : Nat) (seen : Loop → List Value → Machine Bench → Bool) (image : Image)
    (spans : List Span) : Bool :=
  image.isSample ∧ (spans.any fun span => span.places.any fun listed => listed.1 = 0 ∧ listed.2.isLoop "I%") ∧
    (sampleStart image).phase = .idle ∧ (sampleStart image).next = 0 ∧
    ((sampleStart image).variableValue "I%").ty = count.ty ∧
    (image.sampled.follow (.ofDevices Bench.bare .standard) count (sampleStart image) turns (0, [], sampleStart image)).any
      fun (_, values, machine) => seen image.sampled values machine

theorem exists_followed (source : String) (count : Count) (turns : Nat) (seen : Loop → List Value → Machine Bench → Bool)
    (follows : (parse (tokenize source).1).toOption.any (fun program =>
      decide ((program.check .standard).diagnostics = [] ∧
        ((program.check .standard).program.image (program.check .standard).symbols .standard).toOption.any fun image =>
          ((program.check .standard).program.layout? (program.check .standard).symbols .standard).any fun spans =>
            followed count turns seen image spans)) = true) :
    ∃ program image spans, parse (tokenize source).1 = .ok program ∧ (program.check .standard).diagnostics = [] ∧
      (program.check .standard).program.image (program.check .standard).symbols .standard = .ok image ∧
      (program.check .standard).program.layout? (program.check .standard).symbols .standard = some spans ∧
      image.isSample ∧ (∃ span ∈ spans, ∃ first last step body next,
        (0, Stmt.forLoop "I%" first last step body next) ∈ span.places) ∧
      (sampleStart image).phase = .idle ∧ (sampleStart image).next = 0 ∧
      ((sampleStart image).variableValue "I%").ty = count.ty ∧
      ∃ ran values machine,
        image.sampled.Course (.ofDevices Bench.bare .standard) count (sampleStart image) ran values machine ∧
          seen image.sampled values machine = true := by
  obtain ⟨program, parsed, quiet, follows⟩ := exists_parsed source _ follows
  obtain ⟨image, coded, follows⟩ := (Option.any_eq_true _ _).mp follows
  obtain ⟨spans, isLayout, follows⟩ := (Option.any_eq_true _ _).mp follows
  obtain ⟨isSample, isThere, idle, atStart, isCounter, follows⟩ := of_decide_eq_true follows
  obtain ⟨span, isSpan, isThere⟩ := List.any_eq_true.mp isThere
  obtain ⟨⟨place, stmt⟩, isPlace, isThere⟩ := List.any_eq_true.mp isThere
  obtain ⟨rfl, isLoop⟩ := of_decide_eq_true isThere
  obtain ⟨⟨ran, values, machine⟩, follows, isSeen⟩ := (Option.any_eq_true _ _).mp follows
  refine ⟨program, image, spans, parsed, quiet, ?_, isLayout, isSample, ⟨span, isSpan, ?_⟩, idle, atStart, isCounter,
    ran, values, machine, Loop.follow_course .start follows, isSeen⟩
  · cases result : (program.check .standard).program.image (program.check .standard).symbols .standard with
    | error error =>
      rw [result] at coded
      cases coded
    | ok other =>
      rw [result] at coded
      exact congrArg Except.ok (Option.some.inj coded)
  · cases stmt with
    | forLoop counter first last step body next =>
      obtain rfl := of_decide_eq_true isLoop
      exact ⟨first, last, step, body, next, isPlace⟩
    | _ => cases isLoop

theorem small_loop_is_left : ∃ program image ran values machine,
    parse (tokenize (sampleLoop "1" "2")).1 = .ok program ∧ (program.check .standard).diagnostics = [] ∧
      (program.check .standard).program.image (program.check .standard).symbols .standard = .ok image ∧
      image.sampled.Course (.ofDevices Bench.bare .standard) (sampleCount 1 2) (sampleStart image) ran values machine ∧
      values = [.integer 1, .integer 2] ∧ machine.next = image.sampled.exit ∧
      machine.variableValue "I%" = .integer 3 := by
  obtain ⟨program, image, spans, parsed, quiet, coded, isLayout, isSample, ⟨span, isSpan, first, last, step, body, next,
      isLoop⟩, idle, atStart, isCounter, ran, values, machine, course, left⟩ :=
    exists_followed (sampleLoop "1" "2") (sampleCount 1 2) 33 (fun loop _ machine => machine.next = loop.exit)
      (by decide +kernel)
  obtain ⟨others, isOther, counts⟩ := for_loop_counts (sampleLoop "1" "2") .standard program image parsed quiet coded
  obtain rfl : others = spans := Option.some.inj (isOther.symm.trans isLayout)
  obtain ⟨loop, start, counter, laid, counts⟩ := counts span isSpan 0 "I%" first last step body next isLoop
  obtain rfl := laid.is_sampled isSample start counter
  have proper : (sampleCount 1 2).Proper := ⟨by decide, by decide, by decide, by decide⟩
  obtain ⟨isValues, abides⟩ := counts Bench (.ofDevices Bench.bare .standard) Bench.empty [] nofun (.inl idle) atStart
    (sampleCount 1 2) proper isCounter ran values machine course
  obtain ⟨all, -, final⟩ := abides.leaves (of_decide_eq_true left)
  rw [all] at isValues final
  exact ⟨program, image, ran, values, machine, parsed, quiet, coded, course, isValues, of_decide_eq_true left, final⟩

-- The limit says three rounds, but the third number does not fit. The loop stops after two.
theorem limit_beyond_counter_not_reached : ∃ program image ran values machine error,
    parse (tokenize (sampleLoop "32766" "32768")).1 = .ok program ∧ (program.check .standard).diagnostics = [] ∧
      (program.check .standard).program.image (program.check .standard).symbols .standard = .ok image ∧
      image.LaysOut image.sampled ∧ (sampleCount 32766 32768).Proper ∧ (sampleCount 32766 32768).rounds = 3 ∧
      image.sampled.Course (.ofDevices Bench.bare .standard) (sampleCount 32766 32768) (sampleStart image) ran values
        machine ∧
      values.length = 2 ∧ ((Run.step (.ofDevices Bench.bare .standard)).on machine).1 = .error error ∧ error.code = 6 := by
  obtain ⟨program, image, spans, parsed, quiet, coded, isLayout, isSample, ⟨span, isSpan, first, last, step, body, next,
      isLoop⟩, -, -, -, ran, values, machine, course, stops⟩ :=
    exists_followed (sampleLoop "32766" "32768") (sampleCount 32766 32768) 27
      (fun _ values machine => values.length = 2 ∧
        (match ((Run.step (.ofDevices Bench.bare .standard)).on machine).1 with
          | .error error => error.code
          | .ok _ => 0) = 6)
      (by decide +kernel)
  have wellFormed := parse_well_formed (tokenize_lexed (sampleLoop "32766" "32768")) parsed
  obtain ⟨loop, start, counter, loops⟩ := (Program.check_accepted wellFormed quiet).loops coded isLayout
    (Program.shared_not_made wellFormed quiet coded) span isSpan 0 "I%" first last step body next isLoop
  obtain rfl := loops.toLaysOut.is_sampled isSample start counter
  obtain ⟨two, isError⟩ := of_decide_eq_true stops
  have proper : (sampleCount 32766 32768).Proper := ⟨by decide, by decide, by decide, by decide⟩
  split at isError
  · next error failed =>
    exact ⟨program, image, ran, values, machine, error, parsed, quiet, coded, loops.toLaysOut, proper, rfl, course, two,
      failed, isError⟩
  · cases isError

end Sample

end BasicLang
