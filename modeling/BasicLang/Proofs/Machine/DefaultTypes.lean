import BasicLang.Device.Bench
import BasicLang.Proofs.Code.Prologue
import BasicLang.Proofs.Machine.HandlerCode
import BasicLang.Proofs.Machine.Places

set_option autoImplicit false

namespace BasicLang

/-- The machine before one of the instructions that set the types of letters, or before the first one behind them. -/
structure Machine.Opening {σ : Type} (image : Image) (ranges : List LetterRange) (count : Nat) (machine : Machine σ) :
    Prop where
  loaded : machine.image = image
  goes : machine.phase = .idle ∨ machine.phase = .running
  waitsNot : machine.pending = none
  next : machine.next = count
  frames : machine.frames = [Machine.mainFrame]
  handlers : machine.handlers = []
  letters : machine.letters = (LetterTypes.uniform .single).setAll (ranges.take count)

structure Machine.Typed {σ : Type} (image : Image) (ranges : List LetterRange) (machine : Machine σ) : Prop where
  loaded : machine.image = image
  orderly : machine.Orderly
  letters : machine.letters = (LetterTypes.uniform .single).setAll ranges
  behind : machine.phase ≠ .failed → machine.control.Within (ranges.length ≤ ·)

def Machine.Types {σ : Type} (image : Image) (ranges : List LetterRange) (machine : Machine σ) : Prop :=
  (∃ count < ranges.length, machine.Opening image ranges count) ∨ machine.Typed image ranges

section Machines

variable {σ : Type} {image : Image} {ranges : List LetterRange} {count : Nat} {machine : Machine σ}

theorem Machine.Opening.typed (opening : machine.Opening image ranges ranges.length) :
    machine.Typed image ranges where
  loaded := opening.loaded
  orderly := by
    refine Machine.orderly_nothing opening.waitsNot fun suspended => ?_
    have goes := opening.goes
    simp [suspended] at goes
  letters := by
    rw [opening.letters, List.take_length]
  behind _ := .start (Nat.le_of_eq opening.next.symm) opening.frames opening.handlers

theorem Machine.Opening.types (opening : machine.Opening image ranges count) (most : count ≤ ranges.length) :
    machine.Types image ranges := by
  obtain early | rfl := Nat.lt_or_eq_of_le most
  · exact .inl ⟨count, early, opening⟩
  · exact .inr opening.typed

theorem Machine.Types.typed (types : machine.Types image ranges) (behind : ranges.length ≤ machine.next) :
    machine.Typed image ranges := by
  refine types.resolve_left ?_
  rintro ⟨count, early, opening⟩
  rw [opening.next] at behind
  exact absurd behind (Nat.not_le.mpr early)

theorem Machine.reset_opening (opens : image.Opens ranges) (loaded : machine.image = image) :
    machine.reset.Opening image ranges 0 :=
  ⟨loaded, .inl rfl, rfl, rfl, rfl, rfl, congrArg LetterTypes.uniform (loaded ▸ opens.default)⟩

theorem Machine.implicit_types (opens : image.Opens ranges) (loaded : machine.image = image) {symbols : SymbolTable}
    (letters : machine.letters = symbols.letters) (name : String) :
    machine.implicitType name = symbols.implicitType name := by
  rw [Machine.implicitType, SymbolTable.implicitType, SymbolTable.letterType, loaded, opens.default, letters]
  cases Ty.ofSigil? name <;> rfl

namespace Run

variable {setup : Setup σ}

theorem apart_letters : Apart (Machine.letters : Machine σ → LetterTypes) where
  computing := fun _ _ _ _ => rfl
  around := fun _ _ _ _ _ _ => rfl
  control := fun _ _ _ _ _ _ _ => rfl

theorem apart_image : Apart (Machine.image : Machine σ → Image) where
  computing := fun _ _ _ _ => rfl
  around := fun _ _ _ _ _ _ => rfl
  control := fun _ _ _ _ _ _ _ => rfl

theorem ready_letters (setup : Setup σ) (machine : Machine σ) : (ready setup machine).letters = machine.letters :=
  ready_seen apart_letters (fun _ _ _ => rfl) setup machine

theorem step_opens (opens : image.Opens ranges) (early : count < ranges.length)
    (opening : machine.Opening image ranges count) :
    ((step setup).on machine).2.Opening image ranges (count + 1) := by
  have control : (ready setup machine).control = { machine.control with phase := .running } := by
    refine (ready_control setup machine).resolve_right ?_
    rintro ⟨key, handler, found, -⟩
    rw [opening.handlers] at found
    cases found
  have next : (ready setup machine).next = count := (congrArg Control.next control).trans opening.next
  have loaded : (ready setup machine).image = image := (congrArg Control.image control).trans opening.loaded
  obtain ⟨locus, found⟩ := opens.sets count ranges[count] (List.getElem?_eq_getElem early)
  have goesOn : ¬((ready setup machine).image.instructions.size ≤ count + 1 ∧ (ready setup machine).phase = .running) := by
    rw [loaded]
    exact fun isOver => absurd (Nat.le_trans isOver.1 early) (Nat.not_le.mpr opens.goesOn)
  have executed : ((step setup).on machine).2 = { ready setup machine with
      next := count + 1
      letters := machine.letters.setRange ranges[count].first ranges[count].last ranges[count].ty } := by
    rw [on_step_ready opening.goes, loaded, next, found, ← ready_letters setup machine]
    exact if_neg goesOn
  rw [executed]
  refine ⟨loaded, .inr (congrArg Control.phase control), (congrArg Control.pending control).trans opening.waitsNot, rfl,
    (congrArg Control.frames control).trans opening.frames, (congrArg Control.handlers control).trans opening.handlers, ?_⟩
  rw [opening.letters, List.take_add_one, List.getElem?_eq_getElem early, LetterTypes.set_all_append]
  rfl

theorem step_typed (opens : image.Opens ranges) : Upholds (Machine.Typed image ranges) (step setup) := by
  intro machine typed
  by_cases goes : machine.phase = .idle ∨ machine.phase = .running
  · have started := ready_within setup (typed.behind (going_alive goes))
    have letters := step_seen apart_letters goes fun instruction found =>
      execute_stays apart_letters setup instruction.op (fun _ _ _ => rfl) (fun _ _ _ => rfl)
        (fun sets => by
          rw [typed.loaded] at found
          rw [opens.rest _ instruction started.next found] at sets
          cases sets)
        fun _ _ _ => rfl
    have loaded := step_seen apart_image goes fun instruction _ =>
      execute_stays apart_image setup instruction.op (fun _ _ _ => rfl) (fun _ _ _ => rfl) (fun _ _ _ => rfl)
        fun _ _ _ => rfl
    refine ⟨loaded.trans ((ready_waits setup machine).2.2.trans typed.loaded), step_orders machine typed.orderly,
      letters.trans ((ready_letters setup machine).trans typed.letters), fun alive => ?_⟩
    obtain ⟨-, same⟩ | ⟨instruction, found, ⟨_, _, same⟩ | ⟨control, phase, leads, same⟩⟩ :=
      step_control goes (rfl : ((step setup).on machine).2 = _)
    · rw [same]
      exact ⟨started.next, started.returns, started.handlers⟩
    · exact absurd (congrArg Control.phase same) alive
    · rw [typed.loaded] at found
      have isImage : (ready setup machine).image = image := (ready_waits setup machine).2.2.trans typed.loaded
      have behind : { (ready setup machine).control with next := (ready setup machine).next + 1 : Control }.Within
          (ranges.length ≤ ·) := ⟨Nat.le_succ_of_le started.next, started.returns, started.handlers⟩
      have led := behind.lead (fun _ => show ranges.length ≤ (ready setup machine).image.instructions.size by
        rw [isImage]
        exact Nat.le_of_lt opens.goesOn) (opens.aims instruction (Array.mem_of_getElem? found)) leads
      rw [same]
      exact ⟨led.next, led.returns, led.handlers⟩
  · rw [on_step_still goes]
    exact typed

theorem resume_typed (reply : Except DeviceError Reply) :
    Upholds (Machine.Typed image ranges) (resume reply : Run σ Unit) := by
  intro machine typed
  cases waits : machine.pending with
  | none =>
    rw [on_resume_nothing waits]
    exact typed
  | some pending =>
    have behind := typed.behind fun failed => by
      have suspended := typed.orderly.mp (by simp [waits])
      simp [failed] at suspended
    obtain ⟨next, frames, handlers⟩ := resume_in_place reply machine
    refine ⟨(resume_seen apart_image (fun _ _ => rfl) reply machine).trans typed.loaded,
      resume_orders reply machine typed.orderly,
      (resume_seen apart_letters (fun _ _ => rfl) reply machine).trans typed.letters, fun _ => ⟨?_, ?_, ?_⟩⟩
    · rw [show ((resume reply).on machine).2.control.next = machine.next from next]
      exact behind.next
    · rw [show ((resume reply).on machine).2.control.frames = machine.frames from frames]
      exact behind.returns
    · rw [show ((resume reply).on machine).2.control.handlers = machine.handlers from handlers]
      exact behind.handlers

theorem call_typed (opens : image.Opens ranges) {call : HostCall} (goesOn : call.restarts = false) :
    Upholds (Machine.Typed image ranges) (call.run setup) :=
  upholds_call (step_typed opens) resume_typed
    (fun _ _ _ typed => ⟨typed.loaded, typed.orderly, typed.letters, typed.behind⟩) goesOn

theorem call_types (opens : image.Opens ranges) {call : HostCall} (goesOn : call.restarts = false) :
    Upholds (Machine.Types image ranges) (call.run setup) := by
  refine upholds_call (fun machine types => ?_) (fun reply machine types => ?_) (fun machine world events types => ?_)
    goesOn
  · obtain ⟨count, early, opening⟩ | typed := types
    · exact (step_opens opens early opening).types early
    · exact .inr (step_typed opens machine typed)
  · obtain ⟨count, early, opening⟩ | typed := types
    · rw [on_resume_nothing opening.waitsNot]
      exact .inl ⟨count, early, opening⟩
    · exact .inr (resume_typed reply machine typed)
  · obtain ⟨count, early, opening⟩ | typed := types
    · exact .inl ⟨count, early, { opening with }⟩
    · exact .inr { typed with }

end Run

namespace Machine

theorem after_all_typed (setup : Setup σ) (opens : image.Opens ranges) {calls : List HostCall}
    (goOn : ∀ call ∈ calls, call.restarts = false) (typed : machine.Typed image ranges) :
    (machine.afterAll setup calls).Typed image ranges :=
  after_all_holds setup (fun call inside => Run.call_typed opens (goOn call inside)) typed

theorem after_all_types (setup : Setup σ) (opens : image.Opens ranges) {calls : List HostCall}
    (goOn : ∀ call ∈ calls, call.restarts = false) (types : machine.Types image ranges) :
    (machine.afterAll setup calls).Types image ranges :=
  after_all_holds setup (fun call inside => Run.call_types opens (goOn call inside)) types

theorem Opening.runs (setup : Setup σ) (opens : image.Opens ranges) (opening : machine.Opening image ranges 0)
    (most : count ≤ ranges.length) : (machine.afterAll setup [.slice count]).Opening image ranges count := by
  have steps : (machine.afterAll setup (List.replicate count .step)).Opening image ranges count := by
    induction count with
    | zero => exact opening
    | succ count ih =>
      rw [List.replicate_succ', after_all_append]
      change (HostCall.step.after setup _).Opening image ranges (count + 1)
      rw [HostCall.after_step]
      exact Run.step_opens opens most (ih (Nat.le_of_succ_le most))
  rw [(Run.slice_steps setup count machine).2] at steps
  exact steps

theorem Typed.executes (setup : Setup σ) (opens : image.Opens ranges) {calls : List HostCall}
    (goOn : ∀ call ∈ calls, call.restarts = false) (typed : machine.Typed image ranges) {instruction : Instruction}
    {here : Machine σ} (executed : .executes instruction here ∈ machine.deeds setup calls) :
    here.image = image ∧ here.letters = (LetterTypes.uniform .single).setAll ranges := by
  obtain ⟨turns, areTurns, sameDeeds, -⟩ := Run.exists_turns setup machine goOn
  rw [← sameDeeds] at executed
  obtain ⟨before, after, split⟩ := List.append_of_mem executed
  obtain ⟨early, late, isTurns, -, rfl, -⟩ := Run.executes_splits setup machine areTurns split
  have turning : ∀ turn ∈ early, turn.restarts = false := by
    intro turn inside
    have isTurn := areTurns turn (isTurns ▸ List.mem_append_left _ inside)
    cases turn <;> first | rfl | cases isTurn
  have reached := after_all_typed setup opens turning typed
  exact ⟨(Run.ready_waits setup _).2.2.trans reached.loaded, (Run.ready_letters setup _).trans reached.letters⟩

end Machine

end Machines

/-- While an accepted program runs, the types of undeclared names are those that checking ends with, once the
instructions have been executed that set the types of letters. They are the first ones, and are executed first. -/
theorem default_types_agree (source : String) (registry : Registry) (program : Program) (image : Image)
    (parsed : parse (tokenize source).1 = .ok program) (compiled : compile source registry = .ok image) :
    ∃ count, (∀ place instruction, image.instructions[place]? = some instruction →
        (instruction.op.setsLetters = true ↔ place < count)) ∧
      ∀ (σ : Type) (setup : Setup σ) (world : σ) (history : List HostCall),
        let loaded := (Machine.create world).afterAll setup (history ++ [.load image])
        (loaded.afterAll setup [.slice count]).next = count ∧
          ∀ early late : List HostCall, (∀ call ∈ early ++ late, call.restarts = false) →
            let reached := loaded.afterAll setup early
            count ≤ reached.next →
              (∀ name, (reached.afterAll setup late).implicitType name =
                (program.check registry).symbols.implicitType name) ∧
              ∀ instruction here, .executes instruction here ∈ reached.deeds setup late →
                ∀ name, here.implicitType name = (program.check registry).symbols.implicitType name := by
  obtain ⟨quiet, coded⟩ := compile_inversion compiled parsed
  have wellFormed := parse_well_formed (tokenize_lexed source) parsed
  have letters := Program.check_letters wellFormed quiet
  have opens := (Program.check_accepted wellFormed quiet).opens coded
  generalize (program.check registry).program.main.letterRanges = ranges at letters opens
  refine ⟨ranges.length, fun place instruction found => ⟨fun sets => ?_, fun early => ?_⟩, ?_⟩
  · by_contra behind
    rw [opens.rest place instruction (Nat.not_lt.mp behind) found] at sets
    cases sets
  · obtain ⟨locus, isSetting⟩ := opens.sets place ranges[place] (List.getElem?_eq_getElem early)
    rw [isSetting] at found
    cases found
    rfl
  intro σ setup world history loaded
  have opening : loaded.Opening image ranges 0 := by
    rw [show loaded = _ from Machine.after_all_append setup _ history [.load image]]
    exact Machine.reset_opening opens rfl
  refine ⟨(opening.runs setup opens (Nat.le_refl _)).next, ?_⟩
  intro early late goOn reached behind
  obtain ⟨goEarly, goLate⟩ := List.forall_mem_append.mp goOn
  have typed : reached.Typed image ranges :=
    (Machine.after_all_types setup opens goEarly (opening.types (Nat.zero_le _))).typed behind
  have later := Machine.after_all_typed setup opens goLate typed
  refine ⟨Machine.implicit_types opens later.loaded (later.letters.trans letters.symm), fun instruction here executed => ?_⟩
  obtain ⟨isImage, found⟩ := typed.executes setup opens goLate executed
  exact Machine.implicit_types opens isImage (found.trans letters.symm)

def sampleTypes : String := "A = 1\nDEFINT A-C\nDEFSTR B\nEND\n"

theorem sample_types_agree : ∃ program image count, parse (tokenize sampleTypes).1 = .ok program ∧
    compile sampleTypes .standard = .ok image ∧
      let machine := (Machine.create Bench.empty).afterAll (.ofDevices Bench.bare .standard)
        [.load image, .slice count, .step]
      machine.implicitType "AGE" = .integer ∧ machine.implicitType "BOX" = .string ∧
        machine.implicitType "DAY" = .single := by
  obtain ⟨program, parsed, compiles, first, second, third⟩ := exists_parsed sampleTypes
    (fun program => (compile sampleTypes .standard).toOption.isSome = true ∧
      (program.check .standard).symbols.implicitType "AGE" = .integer ∧
      (program.check .standard).symbols.implicitType "BOX" = .string ∧
      (program.check .standard).symbols.implicitType "DAY" = .single)
    (by decide +kernel)
  cases compiled : compile sampleTypes .standard with
  | error errors =>
    rw [compiled] at compiles
    cases compiles
  | ok image =>
    obtain ⟨count, -, runs⟩ := default_types_agree sampleTypes .standard program image parsed compiled
    obtain ⟨opens, agrees⟩ := runs Bench (.ofDevices Bench.bare .standard) Bench.empty []
    obtain ⟨types, -⟩ := agrees [.slice count] [.step] (by simp [HostCall.restarts]) (Nat.le_of_eq opens.symm)
    exact ⟨program, image, count, parsed, rfl, (types "AGE").trans first, (types "BOX").trans second,
      (types "DAY").trans third⟩

end BasicLang
