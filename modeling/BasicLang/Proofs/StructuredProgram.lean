import BasicLang.Proofs.Code.Generation
import BasicLang.Proofs.Code.Layout
import BasicLang.Proofs.Code.StructuredStmt
import BasicLang.Proofs.Machine.Stepping

set_option autoImplicit false

namespace BasicLang

/-- The variables before the first statement: there are none, and new ones have the types of their names. -/
def Environment.initial : Environment where
  value? := fun _ => none
  implicitType := fun name => (Ty.ofSigil? name).getD .single

namespace Block

variable (block : Block)

def Ends (result : Environment) : Prop :=
  ∃ rounds, (block.interpret rounds .initial).run = some (.ok (none, result))

def Faults (fault : Fault) : Prop :=
  ∃ rounds, (block.interpret rounds .initial).run = some (.error fault)

def Diverges : Prop := ∀ rounds, (block.interpret rounds .initial).run = none

end Block

namespace Run

variable {σ : Type}

def Finishes (setup : Setup σ) (image : Image) (machine after : Machine σ) : Prop :=
  ∃ fuel, (program setup image fuel).on machine = (.ok true, after)

def StopsWith (setup : Setup σ) (image : Image) (machine : Machine σ) (error : RuntimeError)
    (after : Machine σ) : Prop :=
  ∃ fuel, (program setup image fuel).on machine = (.error error, after)

def GoesOn (setup : Setup σ) (image : Image) (machine : Machine σ) : Prop :=
  ∀ fuel, ∃ after, (program setup image fuel).on machine = (.ok false, after)

end Run

theorem Ty.of_sigil_scalar (name : String) : ((Ty.ofSigil? name).getD .single).default.isScalar = true := by
  unfold Ty.ofSigil?
  split <;> rfl

namespace Environment

theorem initial_scalar : initial.Scalar :=
  ⟨fun _ _ found => (nomatch found), Ty.of_sigil_scalar⟩

theorem initial_beside : initial.beside initial = initial := by
  unfold beside initial
  congr 1
  funext name
  split <;> rfl

end Environment

namespace Run

variable {σ : Type} (setup : Setup σ) (machine : Machine σ) {image : Image}

def started (image : Image) : Machine σ :=
  (machine.load setup.devices image).setPhase .running

theorem on_program (fuel : Nat) :
    (program setup image fuel).on machine = (toEnd setup fuel).on (started setup machine image) := by
  rw [program, loadImage, on_seq (on_modify _ _), on_seq (on_modify _ _)]
  rfl

theorem started_lookup (name : String) : (started setup machine image).lookup? name = none := by
  have here : (started setup machine image).scopeOf name = 0 := by
    unfold Machine.scopeOf
    split <;> rfl
  rw [Machine.lookup?, here]
  rfl

theorem started_environment (uniform : image.defaultType = .single) :
    (started setup machine image).environment = .initial := by
  unfold Machine.environment Environment.initial
  congr 1
  · funext name
    rw [started_lookup]
    rfl
  · funext name
    have letters : (started setup machine image).letters = LetterTypes.uniform .single := by
      rw [← uniform]
      rfl
    have default : (started setup machine image).image.defaultType = .single := uniform
    rw [Machine.implicitType, letters, default]
    cases Ty.ofSigil? name with
    | some ty => rfl
    | none =>
      cases name.toList.head? with
      | none => rfl
      | some char => exact LetterTypes.get_uniform .single char

theorem started_matches (uniform : image.defaultType = .single) :
    (started setup machine image).Matches image ⟨0, [], .initial⟩ where
  calm := ⟨rfl, rfl, rfl, rfl, rfl⟩
  next := rfl
  stores := by
    have empty := Machine.create_sound machine.world
    exact ⟨⟨empty.closed, empty.cells, Nat.zero_lt_one⟩,
      fun _ _ _ found => (nomatch (started_lookup setup machine _).symm.trans found),
      Environment.initial_scalar, started_environment setup machine uniform⟩
  stack := trivial

end Run

namespace Emit

variable {context : EmitContext}

theorem structured_letter_types (block : Block) (structured : block.isStructured = true) :
    (block.toList.forM fun (locus, stmt) => letterTypes context locus stmt) = (pure () : Emit Unit) := by
  cases block with
  | nil => rfl
  | cons locus head tail =>
    have both : head.isStructured = true ∧ tail.isStructured = true := by
      simpa [Block.isStructured] using structured
    have nothing : letterTypes context locus head = pure () := by
      cases head <;> first | rfl | cases both.1
    have first : (((locus, head) :: tail.toList).forM fun (locus, stmt) => letterTypes context locus stmt) =
        letterTypes context locus head >>= fun _ =>
          tail.toList.forM fun (locus, stmt) => letterTypes context locus stmt := rfl
    rw [Block.toList, first, nothing, pure_bind]
    exact structured_letter_types tail both.2

theorem run_program {program : Program} (structured : program.main.isStructured = true) {whole : Assembly}
    (ran : (Emit.program context program).run .empty = .ok ((), whole)) :
    ∃ last stopped, (block context program.main).run .empty = .ok ((), last) ∧
      (op .stop).run last = .ok ((), stopped) ∧ stopped.Grows whole := by
  rw [Emit.program, structured_letter_types program.main structured, pure_bind] at ran
  obtain ⟨_, last, main, ran⟩ := run_seq ran
  obtain ⟨_, stopped, stop, ran⟩ := run_seq ran
  exact ⟨last, stopped, main, stop,
    (keeps_procedures keeps_step.body keeps_step.parameter context program stopped () whole ran).1⟩

end Emit

namespace Emit

variable {symbols : SymbolTable} {registry : Registry} {program : Program} {image : Image}

theorem image_follows (accepted : program.Accepted symbols registry)
    (structured : program.main.isStructured = true) (coded : program.image symbols registry = .ok image)
    (fuel : Nat) :
    Point.Follows image fuel ⟨0, [], .initial⟩ (program.main.interpret fuel .initial)
      fun (exit, result) last => exit = none ∧ image.Fetches last.next .stop ∧
        ∀ name, isMade name = false → last.environment.value? name = result.value? name := by
  obtain ⟨whole, link, ran, isLinked, same, -⟩ := Program.image_inversion coded
  have linked := Assembly.link_linked isLinked same
  obtain ⟨last, stopped, ranMain, ranStop, grows⟩ := run_program structured ran
  obtain ⟨grown, -, stops, -⟩ := phrase_op linked .stop rfl last () stopped ranStop grows
  have main : program.main.Accepted symbols _ := accepted.bodies (.main program.main) List.mem_cons_self
  obtain ⟨-, -, performs⟩ := phrase_block linked (Program.emitContext symbols registry) _ program.main structured main
    _ _ _ ranMain grown
  have follows := performs .initial .initial
  rw [Environment.initial_beside] at follows
  refine Point.follows_weaken follows ?_
  rintro ⟨exit, result⟩ _ ⟨next, later, -, lands, rfl⟩
  cases exit with
  | none =>
    cases lands
    exact ⟨rfl, stops, fun name isSource => by simp [Environment.beside, isSource]⟩
  | some target =>
    -- There is no loop around the main routine.
    obtain ⟨id, found, -⟩ := lands
    cases found

end Emit

namespace Run

variable {σ : Type} {setup : Setup σ} {machine after : Machine σ} {image : Image} {error : RuntimeError}

theorem program_once {early late : Nat} {first second : Except RuntimeError Bool} {last : Machine σ}
    (ranFirst : (program setup image early).on machine = (first, after))
    (ranSecond : (program setup image late).on machine = (second, last))
    (firstEnded : first ≠ .ok false) (secondEnded : second ≠ .ok false) : first = second ∧ after = last := by
  rw [on_program] at ranFirst ranSecond
  have both := (to_end_more ranFirst firstEnded late).symm.trans
    (Nat.add_comm late early ▸ to_end_more ranSecond secondEnded early)
  exact ⟨congrArg Prod.fst both, congrArg Prod.snd both⟩

theorem GoesOn.not_ended (goesOn : GoesOn setup image machine) {fuel : Nat} {result : Except RuntimeError Bool}
    (ran : (program setup image fuel).on machine = (result, after)) : result = .ok false := by
  obtain ⟨last, unfinished⟩ := goesOn fuel
  exact congrArg Prod.fst (ran.symm.trans unfinished)

end Run

section Structured

variable {symbols : SymbolTable} {registry : Registry} {program : Program} {image : Image}
  (accepted : program.Accepted symbols registry) (structured : program.main.isStructured = true)
  (coded : program.image symbols registry = .ok image) {σ : Type} (setup : Setup σ) (machine : Machine σ)

include accepted structured coded

theorem Block.Ends.finishes {result : Environment} (ends : program.main.Ends result) :
    ∃ after, Run.Finishes setup image machine after ∧ after.phase = .finished ∧
      ∀ name, isMade name = false → after.environment.value? name = result.value? name := by
  obtain ⟨rounds, ended⟩ := ends
  obtain ⟨-, -, -, -, -, uniform, -⟩ := Program.image_inversion coded
  have follows := Emit.image_follows accepted structured coded rounds
  rw [Point.Follows, ended] at follows
  obtain ⟨count, last, steps, -, stops, same⟩ := follows
  obtain ⟨fuel, after, ran, finished, sameVariables⟩ :=
    Run.to_end_finishes steps stops (Run.started_matches setup machine uniform)
  refine ⟨after, ⟨fuel, (Run.on_program setup machine fuel).trans ran⟩, finished, ?_⟩
  rw [sameVariables]
  exact same

theorem Block.Faults.stops {fault : Fault} (faults : program.main.Faults fault) :
    ∃ error after, Run.StopsWith setup image machine error after ∧ error.fault = fault := by
  obtain ⟨rounds, failed⟩ := faults
  obtain ⟨-, -, -, -, -, uniform, -⟩ := Program.image_inversion coded
  have follows := Emit.image_follows accepted structured coded rounds
  rw [Point.Follows, failed] at follows
  obtain ⟨count, last, steps, fails⟩ := follows
  obtain ⟨fuel, error, after, ran, isFault, -⟩ :=
    Run.to_end_fails steps fails (Run.started_matches setup machine uniform)
  exact ⟨error, after, ⟨fuel, (Run.on_program setup machine fuel).trans ran⟩, isFault⟩

theorem Block.Diverges.goes_on (diverges : program.main.Diverges) : Run.GoesOn setup image machine := by
  intro fuel
  obtain ⟨-, -, -, -, -, uniform, -⟩ := Program.image_inversion coded
  have follows := Emit.image_follows accepted structured coded (fuel + 1)
  rw [Point.Follows, diverges] at follows
  obtain ⟨count, last, enough, steps⟩ := follows
  obtain ⟨after, ran⟩ :=
    Run.to_end_unfinished steps enough (Run.started_matches setup machine uniform)
  exact ⟨after, (Run.on_program setup machine fuel).trans ran⟩

theorem Block.interpret_cases :
    (∃ result, program.main.Ends result) ∨ (∃ fault, program.main.Faults fault) ∨ program.main.Diverges := by
  by_cases diverges : program.main.Diverges
  · exact .inr (.inr diverges)
  · obtain ⟨rounds, ended⟩ := Classical.not_forall.mp diverges
    have follows := Emit.image_follows accepted structured coded rounds
    cases found : (program.main.interpret rounds .initial).run with
    | none => exact absurd found ended
    | some outcome =>
      cases outcome with
      | error fault => exact .inr (.inl ⟨fault, rounds, found⟩)
      | ok flow =>
        rw [Point.Follows, found] at follows
        obtain ⟨exit, result⟩ := flow
        obtain ⟨-, -, -, isNone, -⟩ := follows
        cases isNone
        exact .inl ⟨result, rounds, found⟩

end Structured

/-- A program with a structured main routine runs as its statements are interpreted, whatever the devices
do: it finishes with exactly the variables, stops with exactly the fault, or goes on exactly where
interpreting does. Variables that code has made up are not compared. -/
theorem structured_program_runs_as_interpreted (source : String) (registry : Registry) (program : Program)
    (image : Image) (parsed : parse (tokenize source).1 = .ok program)
    (compiled : compile source registry = .ok image)
    (structured : (program.check registry).program.main.isStructured = true)
    {σ : Type} (setup : Setup σ) (machine : Machine σ) :
    (∀ values : String → Option Value,
      (∃ after, Run.Finishes setup image machine after ∧ after.phase = .finished ∧
          ∀ name, isMade name = false → after.environment.value? name = values name) ↔
        ∃ result, (program.check registry).program.main.Ends result ∧
          ∀ name, isMade name = false → result.value? name = values name) ∧
      (∀ fault, (∃ error after, Run.StopsWith setup image machine error after ∧ error.fault = fault) ↔
        (program.check registry).program.main.Faults fault) ∧
      (Run.GoesOn setup image machine ↔ (program.check registry).program.main.Diverges) := by
  obtain ⟨quiet, coded⟩ := compile_inversion compiled parsed
  have accepted := Program.check_accepted (parse_well_formed (tokenize_lexed source) parsed) quiet
  have outcomes := Block.interpret_cases accepted structured coded
  refine ⟨fun values => ⟨?_, ?_⟩, fun fault => ⟨?_, ?_⟩, ?_, ?_⟩
  · rintro ⟨after, ⟨fuel, ran⟩, -, same⟩
    -- The interpreter ends, fails or goes on for ever, and its run is matched by one of the machine; that both are runs of
    -- one machine settles which of the three it was.
    rcases outcomes with ⟨result, ends⟩ | ⟨fault, faults⟩ | diverges
    · obtain ⟨last, ⟨more, ranAgain⟩, -, known⟩ := ends.finishes accepted structured coded setup machine
      obtain ⟨-, rfl⟩ := Run.program_once ran ranAgain (nomatch ·) (nomatch ·)
      exact ⟨result, ends, fun name isSource => (known name isSource).symm.trans (same name isSource)⟩
    · obtain ⟨error, last, ⟨more, stopped⟩, -⟩ := faults.stops accepted structured coded setup machine
      exact nomatch (Run.program_once ran stopped (nomatch ·) (nomatch ·)).1
    · exact nomatch (diverges.goes_on accepted structured coded setup machine).not_ended ran
  · rintro ⟨result, ends, same⟩
    obtain ⟨after, finishes, finished, known⟩ := ends.finishes accepted structured coded setup machine
    exact ⟨after, finishes, finished, fun name isSource => (known name isSource).trans (same name isSource)⟩
  · rintro ⟨error, after, ⟨fuel, ran⟩, rfl⟩
    rcases outcomes with ⟨result, ends⟩ | ⟨fault, faults⟩ | diverges
    · obtain ⟨last, ⟨more, finished⟩, -⟩ := ends.finishes accepted structured coded setup machine
      exact nomatch (Run.program_once ran finished (nomatch ·) (nomatch ·)).1
    · obtain ⟨other, last, ⟨more, stopped⟩, rfl⟩ := faults.stops accepted structured coded setup machine
      obtain ⟨same, -⟩ := Run.program_once ran stopped (nomatch ·) (nomatch ·)
      rw [Except.error.inj same]
      exact faults
    · exact nomatch (diverges.goes_on accepted structured coded setup machine).not_ended ran
  · exact fun faults => faults.stops accepted structured coded setup machine
  · intro goesOn
    rcases outcomes with ⟨result, ends⟩ | ⟨fault, faults⟩ | diverges
    · obtain ⟨last, ⟨more, finished⟩, -⟩ := ends.finishes accepted structured coded setup machine
      exact nomatch goesOn.not_ended finished
    · obtain ⟨other, last, ⟨more, stopped⟩, -⟩ := faults.stops accepted structured coded setup machine
      exact nomatch goesOn.not_ended stopped
    · exact diverges
  · exact fun diverges => diverges.goes_on accepted structured coded setup machine

def sampleLoops : String :=
  "FOR I% = 1 TO 9\nSELECT CASE I%\nCASE 2 TO 3: S% = S% + 10\nCASE ELSE: S% = S% + 1\nEND SELECT\n" ++
    "DO\nIF S% > 20 THEN EXIT FOR\nLOOP WHILE I% < 0\nNEXT\n"

def Block.ending? (block : Block) (rounds : Nat) : Option Environment :=
  match (block.interpret rounds .initial).run with
  | some (.ok (none, result)) => some result
  | _ => none

theorem Block.ends_of_ending {block : Block} {rounds : Nat} {result : Environment}
    (found : block.ending? rounds = some result) : block.Ends result := by
  unfold Block.ending? at found
  split at found
  · next ended =>
    cases found
    exact ⟨rounds, ended⟩
  · cases found

def Value.integer? : Value → Option Int16
  | .integer number => some number
  | _ => none

theorem Value.of_integer {value : Value} {number : Int16} (found : value.integer? = some number) :
    value = .integer number := by
  cases value <;> cases found
  rfl

theorem sample_loops_run : ∃ program image,
    parse (tokenize sampleLoops).1 = .ok program ∧ compile sampleLoops .standard = .ok image ∧
      (program.check .standard).program.main.isStructured = true ∧
      ∃ after, Run.Finishes (.ofDevices Bench.bare .standard) image (Machine.create Bench.empty) after ∧
        after.environment.value? "S%" = some (.integer 21) := by
  obtain ⟨program, parsed, hasCode, structured, ends⟩ := exists_parsed sampleLoops
    (fun program => (compile sampleLoops .standard).toOption.isSome = true ∧
      (program.check .standard).program.main.isStructured = true ∧
      (((program.check .standard).program.main.ending? 9).bind (·.value? "S%")).bind Value.integer? = some 21)
    (by decide +kernel)
  obtain ⟨value, atEnd, isInteger⟩ := Option.bind_eq_some_iff.mp ends
  obtain ⟨result, ended, found⟩ := Option.bind_eq_some_iff.mp atEnd
  cases compiled : compile sampleLoops .standard with
  | error errors =>
    rw [compiled] at hasCode
    cases hasCode
  | ok image =>
    obtain ⟨runs, -⟩ := structured_program_runs_as_interpreted sampleLoops .standard program image parsed compiled
      structured (.ofDevices Bench.bare .standard) (Machine.create Bench.empty)
    obtain ⟨after, finishes, -, same⟩ :=
      (runs result.value?).mpr ⟨result, Block.ends_of_ending ended, fun _ _ => rfl⟩
    refine ⟨program, image, parsed, rfl, structured, after, finishes, ?_⟩
    rw [same "S%" (by decide), found, Value.of_integer isInteger]

end BasicLang
