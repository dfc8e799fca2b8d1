import BasicLang.Device.Bench
import BasicLang.Proofs.Files.Accounts
import BasicLang.Proofs.Machine.Ending
import BasicLang.Proofs.Machine.Events
import BasicLang.Proofs.Machine.Places

set_option autoImplicit false

namespace BasicLang

def HostCall.plays : HostCall → Bool
  | .load _ | .reset | .dispatch _ _ => false
  | _ => true

theorem HostCall.plays_on {call : HostCall} (plays : call.plays = true) : call.restarts = false := by
  cases call <;> first | rfl | cases plays

variable {σ : Type}

/-- The machine that executes its next instruction points behind it. -/
def Machine.behind (machine : Machine σ) : Machine σ := { machine with next := machine.next + 1 }

namespace Run

/-- All text that is printed to a number from now on, as long as a file is open for output under it. -/
def directed (setup : Setup σ) (number : Int) : List (Deed σ) → String
  | [] => ""
  | .executes instruction here :: deeds =>
    if here.files.isWritable number then
      (if here.output = some number then here.behind.said setup instruction.op else "") ++ directed setup number deeds
    else ""
  | .asks _ _ :: deeds | .delivers _ _ _ :: deeds => directed setup number deeds

/-- What each `OPEN` for output or appending has to write in the end: all that is printed to its number while the file is
open. -/
def promised (setup : Setup σ) : List (Deed σ) → List Flush
  | [] => []
  | .executes instruction here :: deeds =>
    ((here.behind.opens? setup instruction.op).map fun (number, mode, path) =>
      ⟨path, directed setup number deeds, mode == .append⟩).toList ++ promised setup deeds
  | .asks _ _ :: deeds | .delivers _ _ _ :: deeds => promised setup deeds

def outstanding (setup : Setup σ) (dues : List (Int × Flush)) (deeds : List (Deed σ)) : List Flush :=
  dues.map fun due => due.2.extend (directed setup due.1 deeds)

variable {setup : Setup σ} {here after : Machine σ}

section Accounting

variable {dues : List (Int × Flush)} {deeds : List (Deed σ)} {instruction : Instruction}

theorem outstanding_append (dues more : List (Int × Flush)) (deeds : List (Deed σ)) :
    outstanding setup (dues ++ more) deeds = outstanding setup dues deeds ++ outstanding setup more deeds :=
  List.map_append

theorem outstanding_executes (ordered : here.files.Ordered) :
    outstanding setup here.files.dues (.executes instruction here :: deeds) =
      outstanding setup (here.files.dues.map (creditTo here.output (here.behind.said setup instruction.op))) deeds := by
  rw [outstanding, outstanding, List.map_map]
  refine List.map_congr_left fun due isDue => ?_
  have isWritable : here.files.isWritable due.1 = true := (ordered.writable_iff due.1).mpr ⟨due.2, isDue⟩
  rw [directed, if_pos isWritable, Function.comp_apply, creditTo]
  split
  · rw [Flush.extend_extend]
  · rw [String.empty_append]

theorem promised_executes :
    promised setup (.executes instruction here :: deeds) =
      outstanding setup ((here.behind.opens? setup instruction.op).map fun (number, mode, path) =>
        firstDue number mode path).toList deeds ++ promised setup deeds := by
  rw [promised]
  congr 1
  cases here.behind.opens? setup instruction.op with
  | none => rfl
  | some opened => exact congrArg (fun text => [Flush.mk opened.2.2 text _]) String.empty_append.symm

theorem outstanding_shut (shut : ∀ due ∈ dues, directed setup due.1 deeds = "") :
    outstanding setup dues deeds = dues.map Prod.snd :=
  List.map_congr_left fun due isDue => by rw [shut due isDue, Flush.extend_nothing]

theorem account_executes {closed : List (Int × Flush)} (ordered : here.files.Ordered)
    (balances : here.behind.Balances (here.behind.said setup instruction.op) (here.behind.opens? setup instruction.op)
      closed after.files after.pending)
    (shut : ∀ due ∈ closed, directed setup due.1 deeds = "") :
    (askedFlushes after.pending ++ outstanding setup after.files.dues deeds ++ promised setup deeds).Perm
      (outstanding setup here.files.dues (.executes instruction here :: deeds) ++
        promised setup (.executes instruction here :: deeds)) := by
  have moved := balances.balance.map fun due : Int × Flush => due.2.extend (directed setup due.1 deeds)
  rw [← outstanding, ← outstanding, outstanding_append, outstanding_append, outstanding_shut shut,
    ← balances.asked] at moved
  rw [outstanding_executes ordered, promised_executes]
  refine (moved.append_right _).trans ?_
  rw [← List.append_assoc]
  exact List.perm_append_comm.append_right _

end Accounting

end Run

/-- The code goes on inside of itself, and `END` alone leads behind it. -/
structure Image.Closes (image : Image) : Prop where
  starts : 0 < image.instructions.size
  aims : ∀ instruction ∈ image.instructions, ∀ place, instruction.op.address? = some (.resolved place) →
    place < image.instructions.size
  ends : ∀ place instruction, image.instructions[place]? = some instruction → instruction.op ≠ .stop →
    place + 1 < image.instructions.size

theorem Program.image_closes {program : Program} {symbols : SymbolTable} {registry : Registry} {image : Image}
    (coded : program.image symbols registry = .ok image) : image.Closes := by
  obtain ⟨last, locus, size, isEnd⟩ := image_ends coded
  refine ⟨size ▸ Nat.succ_pos last, fun instruction inside place isTarget => ?_, fun place instruction found isOther => ?_⟩
  · obtain ⟨other, below, same⟩ := (image_resolved coded).code instruction inside _ isTarget
    exact Target.resolved.inj same ▸ below
  · have below : place < last + 1 := size ▸ (Array.getElem?_eq_some_iff.mp found).1
    have notLast : place ≠ last := by
      rintro rfl
      rw [isEnd] at found
      cases found
      exact isOther rfl
    rw [size]
    exact Nat.succ_lt_succ (Nat.lt_of_le_of_ne (Nat.le_of_lt_succ below) notLast)

structure Machine.Underway (image : Image) (machine : Machine σ) : Prop where
  within : machine.control.Within (· < image.instructions.size)
  goesOn : machine.phase ≠ .finished
  unused : ∀ request number path, machine.pending = some ⟨request, .openInput number path⟩ →
    machine.files.get? number = none

structure Machine.Ended (image : Image) (machine : Machine σ) : Prop where
  next : machine.next = image.instructions.size
  closed : machine.files = []
  unread : ∀ pending, machine.pending = some pending → pending.completion.opens = false

structure Machine.Audited (image : Image) (machine : Machine σ) : Prop where
  loaded : machine.image = image
  orderly : machine.Orderly
  calm : machine.events = []
  ordered : machine.files.Ordered
  ends : machine.phase ≠ .failed → machine.Underway image ∨ machine.Ended image

theorem Machine.Audited.set_phase {image : Image} {machine : Machine σ} (audited : machine.Audited image)
    (alive : machine.phase ≠ .failed) {phase : Phase} (orderly : (machine.setPhase phase).Orderly)
    (ends : phase = .finished → machine.Ended image) : (machine.setPhase phase).Audited image := by
  have later := audited.ends alive
  obtain ⟨notices, same⟩ := machine.set_phase_only phase
  rw [same] at orderly ⊢
  refine ⟨audited.loaded, orderly, audited.calm, audited.ordered, fun _ => ?_⟩
  by_cases finished : phase = .finished
  · have ended := ends finished
    exact .inr ⟨ended.next, ended.closed, ended.unread⟩
  · obtain underway | ended := later
    · exact .inl ⟨⟨underway.within.next, underway.within.returns, underway.within.handlers⟩, finished, underway.unused⟩
    · exact .inr ⟨ended.next, ended.closed, ended.unread⟩

namespace Run

variable {setup : Setup σ} {image : Image} {machine here after : Machine σ}

section Tracking

theorem ready_calm (noBus : setup.devices.bus = none) (calm : machine.events = []) :
    ready setup machine = machine.setPhase .running ∧ news setup machine = [] := by
  have events : (machine.setPhase .running).events = [] := (set_phase_seen apart_events machine .running).trans calm
  have polled : pollEvents setup.devices (machine.setPhase .running) = machine.setPhase .running := by
    rw [pollEvents, noBus]
  rw [ready, news, polled, deliverEvent, toldDelivery, events]
  exact ⟨rfl, rfl⟩

theorem stop_closes (waitsNot : machine.pending = none) :
    Meets (execute setup .stop) machine (fun _ after => after.files = [] ∧
      ∀ pending, after.pending = some pending → pending.completion.opens = false) fun _ _ => True := by
  rw [Meets, execute, stop, on_seq (on_get machine), on_seq (on_modify _ _)]
  refine meets_weaken (meets_write_back ?_ _) (fun _ _ closed => ⟨closed.1, closed.2.2⟩) fun _ _ _ => trivial
  exact waitsNot

-- Where the reply is a file for input, it is opened under the number that was asked for.
theorem resume_opens {request : Request} {number : Int} {path : String}
    (waits : machine.pending = some ⟨request, .openInput number path⟩) (reply : Except DeviceError Reply) :
    ((resume reply).on machine).2.files = machine.files ∨
      ∃ text, ((resume reply).on machine).2.files = machine.files.set number (.input path text) := by
  have goesOn (last : Machine σ) :
      ((modify fun machine : Machine σ => machine.setPhase .running : Run σ Unit).on last).2.files = last.files :=
    set_phase_seen apart_files last .running
  rw [resume, on_seq (on_get machine), waits]
  dsimp only
  rw [on_seq (on_modify _ _), on_bind, failing, on_catch]
  cases reply with
  | error error => exact .inl (goesOn { machine with pending := none, status := error.code })
  | ok reply =>
    have opens (text : String) := goesOn
      { machine with pending := none, status := 0, files := machine.files.set number (.input path text) }
    cases reply with
    | done => exact .inr ⟨"", opens ""⟩
    | text text => exact .inr ⟨text, opens text⟩
    | handle handle => exact .inl (goesOn { machine with pending := none, status := 0 })

theorem resume_fails {reply : Except DeviceError Reply} {error : RuntimeError} {after : Machine σ} {pending : Pending}
    (waits : machine.pending = some pending) (failed : (resume reply).on machine = (.error error, after)) :
    after.phase = .failed := by
  have resumed := meets_resumed (preserved_files fun _ _ => True) reply waits trivial (fun _ _ => trivial) fun _ _ _ _ => id
  rw [Meets, failed] at resumed
  obtain ⟨last, -, rfl⟩ := resumed
  rfl

theorem resume_files {reply : Except DeviceError Reply} {after : Machine σ} {pending : Pending}
    (waits : machine.pending = some pending) (quiet : pending.completion.opens = false)
    (resumed : (resume reply).on machine = (.ok (), after)) : after.files = machine.files := by
  have answered := meets_resumed (preserved_files fun files _ => files = machine.files) reply waits rfl
    (fun _ _ => trivial) fun opens => by cases quiet.symm.trans opens
  rw [Meets, resumed] at answered
  obtain ⟨last, same, rfl⟩ := answered
  exact (set_phase_seen apart_files last .running).trans same

theorem reply_accounts (audited : machine.Audited image) {pending : Pending} (waits : machine.pending = some pending)
    (reply : Except DeviceError Reply) :
    ((resume reply).on machine).2.phase = .failed ∨
      ((resume reply).on machine).2.Audited image ∧ ((resume reply).on machine).2.pending = none ∧
        ((resume reply).on machine).2.files.dues = machine.files.dues := by
  have suspended : machine.phase = .suspended := audited.orderly.mp (by simp [waits])
  have orderly := resume_orders reply machine audited.orderly
  have calm := (resume_seen apart_events (fun _ _ => rfl) reply machine).trans audited.calm
  have opens {request : Request} {number : Int} {path : String}
      (isOpening : machine.pending = some ⟨request, .openInput number path⟩) := resume_opens isOpening reply
  cases ran : (resume reply).on machine with
  | mk result after =>
    rw [ran] at orderly calm opens
    cases result with
    | error error => exact .inl (resume_fails waits ran)
    | ok _ =>
      have control := resume_control ran
      have loaded : after.image = image := (congrArg Control.image control).trans audited.loaded
      have next : after.next = machine.next := congrArg Control.next control
      have running : after.phase = .running := congrArg Control.phase control
      have free : after.pending = none := congrArg Control.pending control
      right
      -- A reply to a program under way may open a file; one to a program at its end only follows the flushes of `END`.
      obtain underway | ended := audited.ends (by simp [suspended])
      · have settled : after.files.Ordered ∧ after.files.dues = machine.files.dues := by
          obtain ⟨request, completion⟩ := pending
          cases completion with
          | openInput number path =>
            obtain same | ⟨text, same⟩ := opens waits
            · rw [show after.files = machine.files from same]
              exact ⟨audited.ordered, rfl⟩
            · have unused := underway.unused request number path waits
              rw [show after.files = _ from same]
              have replaces : machine.files.isWritable number = false := by rw [FileTable.isWritable, unused]; rfl
              exact ⟨audited.ordered.set number _, audited.ordered.dues_set_input rfl replaces⟩
          | _ =>
            rw [resume_files waits rfl ran]
            exact ⟨audited.ordered, rfl⟩
        have within : after.control.Within (· < image.instructions.size) := by
          rw [control]
          exact ⟨underway.within.next, underway.within.returns, underway.within.handlers⟩
        have still : after.Underway image := ⟨within, by simp [running], fun _ _ _ waits => by cases free.symm.trans waits⟩
        exact ⟨⟨loaded, orderly, calm, settled.1, fun _ => .inl still⟩, free, settled.2⟩
      · have same := resume_files waits (ended.unread pending waits) ran
        have still : after.Ended image :=
          ⟨next.trans ended.next, same.trans ended.closed, fun _ waits => by cases free.symm.trans waits⟩
        have ordered : after.files.Ordered := same ▸ audited.ordered
        exact ⟨⟨loaded, orderly, calm, ordered, fun _ => .inr still⟩, free, congrArg FileTable.dues same⟩

theorem executes_accounts (closes : image.Closes) (audited : here.Audited image) (underway : here.Underway image)
    (running : here.phase = .running) (waitsNot : here.pending = none) {instruction : Instruction}
    (found : image.instructions[here.next]? = some instruction)
    (ran : (execute setup instruction.op).on here.behind = (.ok (), after)) :
    after.Audited image ∧
      here.behind.Balanced (here.behind.said setup instruction.op) (here.behind.opens? setup instruction.op) after := by
  have moved := execute_moves setup instruction.op here.behind
  have balanced : Meets (execute setup instruction.op) here.behind _ _ :=
    execute_balances setup instruction.op audited.ordered waitsNot
  have calm := execute_stays apart_events setup instruction.op (fun _ _ _ => rfl) (fun _ _ _ => rfl) (fun _ _ _ => rfl)
    (fun _ _ _ => rfl) [] here.behind audited.calm
  rw [Meets, ran] at moved balanced calm
  have goesOn := lead_waits moved running waitsNot
  have orderly : after.Orderly := by
    obtain ⟨free, phase⟩ | ⟨waits, phase⟩ := goesOn
    · exact Machine.orderly_nothing free (by rw [show after.phase = .running from phase]; simp)
    · exact ⟨fun _ => phase, fun _ => waits⟩
  obtain ⟨closed, balances⟩ := balanced
  refine ⟨⟨moved.handlers.1.trans audited.loaded, orderly, calm.1, balances.ordered, fun _ => ?_⟩, closed, balances⟩
  by_cases isEnd : instruction.op = .stop
  · right
    have stopped : Meets (execute setup .stop) here.behind _ _ := stop_closes waitsNot
    rw [← isEnd, Meets, ran] at stopped
    rw [isEnd] at moved
    have next : after.next = here.image.instructions.size := by
      obtain same | ⟨_, same⟩ := moved <;> exact congrArg Control.next same
    exact ⟨next.trans (by rw [audited.loaded]), stopped.1, stopped.2⟩
  · left
    have started : here.behind.control.Within (· < image.instructions.size) :=
      ⟨closes.ends here.next instruction found isEnd, underway.within.returns, underway.within.handlers⟩
    have led := started.lead (fun isStop => absurd isStop isEnd)
      (closes.aims instruction (Array.mem_of_getElem? found)) moved
    refine ⟨led, fun finished => ?_, balances.unused⟩
    obtain ⟨-, phase⟩ | ⟨-, phase⟩ := goesOn <;> cases finished.symm.trans phase

theorem finish_audited (audited : machine.Audited image) (alive : machine.phase ≠ .failed)
    (behind : machine.image.instructions.size ≤ machine.next) (waitsNot : machine.pending = none) :
    (machine.setPhase .finished).Audited image := by
  refine audited.set_phase alive (Machine.set_phase_orderly waitsNot (by decide)) fun _ => ?_
  refine (audited.ends alive).resolve_left fun underway => ?_
  rw [audited.loaded] at behind
  exact absurd underway.within.next (Nat.not_lt.mpr behind)

/-- What a turn does about what has to be written: it may ask for it, or take an answer, or it executes an instruction. -/
inductive Turned (setup : Setup σ) (machine after : Machine σ) : List (Deed σ) → List Request → Prop
  | waits {deeds : List (Deed σ)} {answers : List Request} (executesNot : ∀ deed ∈ deeds, deed.isExecution = false)
      (dues : after.files.dues = machine.files.dues)
      (asked : askedFlushes machine.pending = answers.flatMap Request.flushes ++ askedFlushes after.pending) :
      Turned setup machine after deeds answers
  | executes {instruction : Instruction} {here : Machine σ} {closed : List (Int × Flush)}
      (waitsNot : machine.pending = none) (ordered : here.files.Ordered) (files : here.files = machine.files)
      (balances : here.behind.Balances (here.behind.said setup instruction.op) (here.behind.opens? setup instruction.op)
        closed after.files after.pending) :
      Turned setup machine after [.executes instruction here] []

theorem step_accounts (closes : image.Closes) (noBus : setup.devices.bus = none) (audited : machine.Audited image)
    (goes : machine.phase = .idle ∨ machine.phase = .running) :
    ((step setup).on machine).2.phase = .failed ∨ ((step setup).on machine).2.Audited image ∧
      Turned setup machine ((step setup).on machine).2 (toldStep setup machine).1 [] := by
  have waitsNot : machine.pending = none := by
    refine audited.orderly.waits_not fun suspended => ?_
    rw [suspended] at goes
    simp at goes
  obtain ⟨isReady, noNews⟩ := ready_calm noBus audited.calm
  -- Making ready changes no file, so the balance of the step is that of its instruction.
  have started : (ready setup machine).Audited image := by
    rw [isReady]
    exact audited.set_phase (going_alive goes) (Machine.set_phase_orderly waitsNot (by decide)) (by simp)
  have files : (ready setup machine).files = machine.files := isReady ▸ set_phase_seen apart_files machine .running
  obtain ⟨running, waits, sameImage⟩ := ready_waits setup machine
  have free : (ready setup machine).pending = none := waits.trans waitsNot
  rw [told_step_ready goes, noNews, List.nil_append, ← sameImage, on_step_ready goes]
  generalize ready setup machine = here at *
  have alive : here.phase ≠ .failed := by simp [running]
  cases found : here.image.instructions[here.next]? with
  | none =>
    obtain ⟨notices, finished⟩ := here.set_phase_only .finished
    refine .inr ⟨finish_audited started alive (Array.getElem?_eq_none_iff.mp found) free, .waits (by simp) ?_ ?_⟩
    · exact congrArg FileTable.dues ((set_phase_seen apart_files here .finished).trans files)
    · rw [waitsNot, finished, show ({ here with phase := .finished, notices } : Machine σ).pending = none from free]
      rfl
  | some instruction =>
    have underway : here.Underway image := by
      refine (started.ends alive).resolve_right fun ended => ?_
      rw [ended.next, started.loaded] at found
      simp at found
    dsimp only
    cases ran : (execute setup instruction.op).on here.behind with
    | mk result last =>
      rw [Machine.behind] at ran
      rw [ran]
      cases result with
      | error error => exact .inl rfl
      | ok _ =>
        obtain ⟨lastAudited, closed, balances⟩ := executes_accounts closes started underway running free
          (started.loaded ▸ found) ran
        dsimp only
        right
        split
        · next ends =>
          have lastFree : last.pending = none := lastAudited.orderly.waits_not (by simp [ends.2])
          have lastBalances : here.behind.Balances (here.behind.said setup instruction.op)
              (here.behind.opens? setup instruction.op) closed (last.setPhase .finished).files
              (last.setPhase .finished).pending := by
            obtain ⟨notices, finished⟩ := last.set_phase_only .finished
            rw [finished]
            exact balances
          exact ⟨finish_audited lastAudited (by simp [ends.2]) ends.1 lastFree,
            .executes waitsNot started.ordered files lastBalances⟩
        · exact ⟨lastAudited, .executes waitsNot started.ordered files balances⟩

end Tracking

section Turns

theorem turned_still {deeds : List (Deed σ)} {answers : List Request} (nothing : deeds = []) (unanswered : answers = []) :
    Turned setup machine machine deeds answers := by
  rw [nothing, unanswered]
  exact .waits (by simp) rfl rfl

theorem reply_turned (audited : machine.Audited image) {pending : Pending} (waits : machine.pending = some pending)
    (world : σ) (reply : Except DeviceError Reply) {deeds : List (Deed σ)}
    (executesNot : ∀ deed ∈ deeds, deed.isExecution = false) :
    ((resume reply).on { machine with world }).2.phase = .failed ∨
      ((resume reply).on { machine with world }).2.Audited image ∧
        Turned setup machine ((resume reply).on { machine with world }).2 deeds [pending.request] := by
  have moved : ({ machine with world } : Machine σ).Audited image := by
    refine ⟨audited.loaded, audited.orderly, audited.calm, audited.ordered, fun alive => ?_⟩
    refine (audited.ends alive).imp ?_ ?_
    · exact fun underway => ⟨underway.within, underway.goesOn, underway.unused⟩
    · exact fun ended => ⟨ended.next, ended.closed, ended.unread⟩
  refine (reply_accounts moved waits reply).imp_right fun ⟨later, free, dues⟩ => ⟨later, .waits executesNot dues ?_⟩
  rw [free, waits]
  exact (List.append_nil _).symm.trans (congrArg (· ++ []) (List.append_nil _).symm)

theorem turn_accounts (closes : image.Closes) (noBus : setup.devices.bus = none) (audited : machine.Audited image)
    {turn : HostCall} (isTurn : turn.isTurn = true) (plays : turn.plays = true) :
    (turn.after setup machine).phase = .failed ∨ (turn.after setup machine).Audited image ∧
      Turned setup machine (turn.after setup machine) (turn.deeds setup machine) (turn.answers machine) := by
  -- Turns that find nothing to do leave the machine and the account as they are.
  have still (same : turn.after setup machine = machine) (nothing : turn.deeds setup machine = [])
      (unanswered : turn.answers machine = []) :
      (turn.after setup machine).phase = .failed ∨ (turn.after setup machine).Audited image ∧
        Turned setup machine (turn.after setup machine) (turn.deeds setup machine) (turn.answers machine) := by
    rw [same]
    exact .inr ⟨audited, turned_still nothing unanswered⟩
  cases turn with
  | load image | reset | tick | slice count => cases isTurn
  | dispatch key data => cases plays
  | step =>
    by_cases goes : machine.phase = .idle ∨ machine.phase = .running
    · rw [HostCall.after_step]
      exact step_accounts closes noBus audited goes
    · exact still (by rw [HostCall.after_step, on_step_still goes]) (told_step_still goes) rfl
  | resume reply =>
    cases waits : machine.pending with
    | none =>
      obtain ⟨-, -, same⟩ := reply_to_nothing setup waits
      exact still (same reply) rfl (by rw [HostCall.answers, waits]; rfl)
    | some pending =>
      rw [HostCall.answers, waits]
      exact reply_turned audited waits machine.world reply (by simp [HostCall.deeds])
  | service =>
    cases waits : machine.pending with
    | none =>
      obtain ⟨nothing, same, -⟩ := reply_to_nothing setup waits
      exact still same nothing (by rw [HostCall.answers, waits]; rfl)
    | some pending =>
      obtain ⟨asks, same⟩ := service_asks setup waits
      have answers : HostCall.service.answers machine = [pending.request] := by rw [HostCall.answers, waits]; rfl
      have executesNot : ∀ deed ∈ [Deed.asks pending.request machine], deed.isExecution = false :=
        List.forall_mem_singleton.mpr rfl
      rw [same, asks, answers]
      exact reply_turned audited waits _ _ executesNot

theorem waits_promises {deeds : List (Deed σ)} (executesNot : ∀ deed ∈ deeds, deed.isExecution = false)
    (later : List (Deed σ)) :
    (∀ number, directed setup number (deeds ++ later) = directed setup number later) ∧
      promised setup (deeds ++ later) = promised setup later := by
  induction deeds with
  | nil => exact ⟨fun _ => rfl, rfl⟩
  | cons deed deeds ih =>
    obtain ⟨first, others⟩ := List.forall_mem_cons.mp executesNot
    cases deed with
    | executes instruction here => cases first
    | asks request here | delivers key data here => exact ih others

theorem failed_stays (orderly : machine.Orderly) (failed : machine.phase = .failed) {turns : List HostCall}
    (goOn : ∀ turn ∈ turns, turn.restarts = false) : (machine.afterAll setup turns).phase = .failed := by
  have kept : ∀ turn ∈ turns, Upholds (fun machine : Machine σ => machine.Orderly ∧ machine.phase = .failed)
      (turn.run setup) := fun turn inside machine held =>
    ⟨call_orders turn machine held.1, (over_stays held.1 (.inr held.2) (goOn turn inside)).trans held.2⟩
  exact (Machine.after_all_holds setup kept ⟨orderly, failed⟩).2

theorem turns_alive (orderly : machine.Orderly) {turn : HostCall} {turns : List HostCall}
    (plays : ∀ turn ∈ turns, turn.plays = true) (alive : (machine.afterAll setup (turn :: turns)).phase ≠ .failed) :
    (turn.after setup machine).phase ≠ .failed := by
  have goOn : ∀ turn ∈ turns, turn.restarts = false := fun turn inside => HostCall.plays_on (plays turn inside)
  exact fun failed => alive (failed_stays (call_orders turn machine orderly) failed goOn)

theorem directed_shut (closes : image.Closes) (noBus : setup.devices.bus = none) (audited : machine.Audited image)
    {turns : List HostCall} (areTurns : ∀ turn ∈ turns, turn.isTurn = true) (play : ∀ turn ∈ turns, turn.plays = true)
    {number : Int} (shut : machine.files.isWritable number = false)
    (alive : (machine.afterAll setup turns).phase ≠ .failed) : directed setup number (machine.deeds setup turns) = "" := by
  induction turns generalizing machine with
  | nil => rfl
  | cons turn turns ih =>
    obtain ⟨isTurn, others⟩ := List.forall_mem_cons.mp areTurns
    obtain ⟨plays, playOn⟩ := List.forall_mem_cons.mp play
    obtain ⟨later, turned⟩ := (turn_accounts closes noBus audited isTurn plays).resolve_left
      (turns_alive audited.orderly playOn alive)
    rw [Machine.deeds]
    generalize turn.deeds setup machine = deeds at turned
    generalize turn.answers machine = answers at turned
    cases turned with
    | waits executesNot dues asked =>
      rw [(waits_promises executesNot _).1]
      exact ih later others playOn ((later.ordered.writable_congr audited.ordered dues number).trans shut) alive
    | executes waitsNot ordered files balances =>
      rw [List.singleton_append, directed, files, shut]
      rfl

theorem turns_account (closes : image.Closes) (noBus : setup.devices.bus = none) (audited : machine.Audited image)
    {turns : List HostCall} (areTurns : ∀ turn ∈ turns, turn.isTurn = true) (play : ∀ turn ∈ turns, turn.plays = true)
    (finished : (machine.afterAll setup turns).phase = .finished) :
    (machine.afterAll setup turns).files = [] ∧
      ((machine.answered setup turns).flatMap Request.flushes).Perm
        (askedFlushes machine.pending ++ outstanding setup machine.files.dues (machine.deeds setup turns) ++
          promised setup (machine.deeds setup turns)) := by
  induction turns generalizing machine with
  | nil =>
    have isFinished : machine.phase = .finished := finished
    have ended : machine.Ended image :=
      (audited.ends (by simp [isFinished])).resolve_left fun underway => underway.goesOn isFinished
    have free : machine.pending = none := audited.orderly.waits_not (by simp [isFinished])
    refine ⟨ended.closed, ?_⟩
    rw [free, ended.closed]
    exact .refl _
  | cons turn turns ih =>
    obtain ⟨isTurn, others⟩ := List.forall_mem_cons.mp areTurns
    obtain ⟨plays, playOn⟩ := List.forall_mem_cons.mp play
    have alive : (machine.afterAll setup (turn :: turns)).phase ≠ .failed := by simp [finished]
    obtain ⟨later, turned⟩ := (turn_accounts closes noBus audited isTurn plays).resolve_left
      (turns_alive audited.orderly playOn alive)
    obtain ⟨closed, balance⟩ := ih later others playOn finished
    refine ⟨closed, ?_⟩
    -- A file that the turn leaves shut takes no text in the later turns before it is opened again.
    have shuts {number : Int} (shut : (turn.after setup machine).files.isWritable number = false) :=
      directed_shut closes noBus later others playOn shut alive
    rw [Machine.deeds, Machine.answered, List.flatMap_append]
    generalize turn.deeds setup machine = deeds at turned
    generalize turn.answers machine = answers at turned
    cases turned with
    | waits executesNot dues asked =>
      obtain ⟨directs, promises⟩ := waits_promises executesNot ((turn.after setup machine).deeds setup turns)
      have same : outstanding setup machine.files.dues (deeds ++ (turn.after setup machine).deeds setup turns) =
          outstanding setup (turn.after setup machine).files.dues ((turn.after setup machine).deeds setup turns) := by
        rw [dues]
        exact List.map_congr_left fun due _ => congrArg due.2.extend (directs due.1)
      rw [same, promises, asked, List.append_assoc, List.append_assoc, ← List.append_assoc (askedFlushes _)]
      exact balance.append_left _
    | executes waitsNot ordered files balances =>
      refine balance.trans ?_
      rw [List.singleton_append, ← files, waitsNot]
      exact account_executes ordered balances fun due isDue => shuts (balances.shut due isDue)

end Turns

end Run

theorem Machine.load_audited {image : Image} (closes : image.Closes) (machine : Machine σ) (devices : Devices σ) :
    (machine.load devices image).Audited image := by
  refine ⟨rfl, orderly_nothing rfl (by simp [load, reset]), rfl, .nil, fun _ => .inl ⟨?_, by simp [load, reset], ?_⟩⟩
  · exact Control.Within.start closes.starts rfl rfl
  · intro request number path waits
    cases waits

/-- When a compiled program has ended without events, no file is open, and for each `OPEN` for output or appending the
device was asked once to write all that was printed to its number while the file was open, in the order of printing, and
was asked to write nothing else. That does not depend on what the device replies. -/
theorem printed_text_is_written_once (source : String) (registry : Registry) (image : Image)
    (compiled : compile source registry = .ok image) (setup : Setup σ) (noBus : setup.devices.bus = none)
    (machine : Machine σ) (calls : List HostCall) (play : ∀ call ∈ calls, call.plays = true) :
    let loaded := machine.load setup.devices image
    (loaded.afterAll setup calls).phase = .finished →
      (loaded.afterAll setup calls).files = [] ∧
        ((loaded.answered setup calls).flatMap Request.flushes).Perm (Run.promised setup (loaded.deeds setup calls)) := by
  intro loaded finished
  have closes : image.Closes := by
    cases parsed : parse (tokenize source).1 with
    | error errors =>
      unfold compile at compiled
      simp only [parsed] at compiled
      split at compiled <;> cases compiled
    | ok program => exact Program.image_closes (compile_inversion compiled parsed).2
  have audited : loaded.Audited image := machine.load_audited closes setup.devices
  obtain ⟨sameDeeds, sameAnswers, sameAfter⟩ := Run.calls_turns setup loaded calls
  have areTurns := Run.turns_are_turns setup fun call inside => HostCall.plays_on (play call inside)
  have playOn : ∀ turn ∈ calls.flatMap (HostCall.turns setup), turn.plays = true := by
    intro turn inside
    obtain rfl | isCall := (areTurns turn inside).2
    · rfl
    · exact play turn isCall
  -- Host calls are broken into turns, for the balance is kept turn by turn.
  have written := Run.turns_account closes noBus audited (fun turn inside => (areTurns turn inside).1) playOn
    (sameAfter ▸ finished)
  rw [sameDeeds, sameAnswers, sameAfter] at written
  exact written

def sampleFiles : String :=
  "OPEN \"a\" FOR OUTPUT AS #1\nPRINT #1, \"x\"\nPRINT \"z\"\nPRINT #1, \"w\"\nCLOSE #1\n" ++
    "OPEN \"b\" FOR APPEND AS #2\nPRINT #2, \"y\"\nEND\n"

theorem sample_files_written : ∃ image, compile sampleFiles .standard = .ok image ∧
    let loaded := (Machine.create Bench.empty).load endingSetup.devices image
    let calls : List HostCall := [.slice 40, .service, .slice 40, .service, .slice 40]
    (loaded.afterAll endingSetup calls).files = [] ∧
      ((loaded.answered endingSetup calls).flatMap Request.flushes).Perm [⟨"a", "x\nw\n", false⟩, ⟨"b", "y\n", true⟩] := by
  obtain ⟨image, compiled, finished, promised⟩ := exists_compiled sampleFiles
    (fun image =>
      let loaded := (Machine.create Bench.empty).load endingSetup.devices image
      let calls : List HostCall := [.slice 40, .service, .slice 40, .service, .slice 40]
      (loaded.afterAll endingSetup calls).phase = .finished ∧
        Run.promised endingSetup (loaded.deeds endingSetup calls) = [⟨"a", "x\nw\n", false⟩, ⟨"b", "y\n", true⟩])
    (by decide +kernel)
  have written := printed_text_is_written_once sampleFiles .standard image compiled endingSetup rfl
    (Machine.create Bench.empty) [.slice 40, .service, .slice 40, .service, .slice 40] (by decide) finished
  rw [promised] at written
  exact ⟨image, compiled, written⟩

end BasicLang
