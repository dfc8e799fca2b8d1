import BasicLang.Device.Bench
import BasicLang.Proofs.Code.Generation
import BasicLang.Proofs.Machine.Effects

set_option autoImplicit false

namespace BasicLang

inductive Stacked : List Frame → Nat → Prop where
  | main : Stacked [Machine.mainFrame] 1
  | call {frames : List Frame} {count : Nat} (returnTo : Nat) (stacked : Stacked frames count) :
      Stacked (⟨.call, returnTo, count⟩ :: frames) (count + 1)
  | gosub {outer : Frame} {rest : List Frame} {count : Nat} (returnTo : Nat) (stacked : Stacked (outer :: rest) count) :
      Stacked (⟨.gosub, returnTo, outer.scope⟩ :: outer :: rest) count
  | event {frames : List Frame} {count : Nat} (returnTo : Nat) (stacked : Stacked frames count)
      (alone : ∀ frame ∈ frames, frame.kind ≠ .event) : Stacked (⟨.event, returnTo, 0⟩ :: frames) count

namespace Stacked

variable {frames above below : List Frame} {frame outer other : Frame} {count : Nat}

theorem has_main (stacked : Stacked frames count) :
    ∃ above, frames = above ++ [Machine.mainFrame] ∧ ∀ frame ∈ above, frame.kind ≠ .main := by
  induction stacked with
  | main => exact ⟨[], rfl, by simp⟩
  | call _ _ ih | gosub _ _ ih | event _ _ _ ih =>
    obtain ⟨above, same, others⟩ := ih
    exact ⟨_ :: above, congrArg _ same, List.forall_mem_cons.mpr ⟨by simp, others⟩⟩

theorem has_scopes (stacked : Stacked frames count) : 0 < count := by
  induction stacked with
  | main => exact Nat.one_pos
  | call _ _ _ => exact Nat.succ_pos _
  | gosub _ _ ih | event _ _ _ ih => exact ih

theorem scope_below (stacked : Stacked frames count) : ∀ frame ∈ frames, frame.scope < count := by
  induction stacked with
  | main => simp [Machine.mainFrame]
  | call returnTo stacked ih =>
    exact List.forall_mem_cons.mpr ⟨Nat.lt_succ_self _, fun frame inside => Nat.lt_succ_of_lt (ih frame inside)⟩
  | @gosub outer _ _ returnTo stacked ih => exact List.forall_mem_cons.mpr ⟨ih outer List.mem_cons_self, ih⟩
  | event returnTo stacked alone ih => exact List.forall_mem_cons.mpr ⟨stacked.has_scopes, ih⟩

theorem counted (stacked : Stacked frames count) : count = frames.countP (fun frame => frame.kind == .call) + 1 := by
  induction stacked with
  | main => rfl
  | call _ _ ih => simpa using ih
  | gosub _ _ ih => simpa using ih
  | event _ _ _ ih => simpa using ih

theorem one_event (stacked : Stacked frames count) : frames.countP (fun frame => frame.kind == .event) ≤ 1 := by
  induction stacked with
  | main => simp [Machine.mainFrame]
  | call _ _ ih => simpa using ih
  | gosub _ _ ih => simpa using ih
  | event returnTo stacked alone ih =>
    simpa using alone

theorem event_scope (stacked : Stacked frames count) : ∀ frame ∈ frames, frame.kind = .event → frame.scope = 0 := by
  induction stacked with
  | main => simp [Machine.mainFrame]
  | call _ _ ih | gosub _ _ ih | event _ _ _ ih => exact List.forall_mem_cons.mpr ⟨by simp, ih⟩

theorem left (stacked : Stacked (above ++ frame :: below) count) : ∃ fewer, Stacked (frame :: below) fewer := by
  induction above generalizing count with
  | nil => exact ⟨count, stacked⟩
  | cons top above ih =>
    rw [List.cons_append] at stacked
    generalize rest : above ++ frame :: below = others at stacked
    cases stacked with
    | main => simp at rest
    | call _ stacked => exact ih (rest ▸ stacked)
    | gosub _ stacked => exact ih (rest ▸ stacked)
    | event _ stacked _ => exact ih (rest ▸ stacked)

theorem gosub_scope (stacked : Stacked (frame :: outer :: below) count) (isGosub : frame.kind = .gosub) :
    frame.scope = outer.scope := by
  cases stacked with
  | call _ _ => cases isGosub
  | gosub _ _ => rfl
  | event _ _ _ => cases isGosub

theorem call_scope (stacked : Stacked (frame :: below) count) (isCall : frame.kind = .call) :
    0 < frame.scope ∧ ∀ other ∈ below, other.scope < frame.scope := by
  cases stacked with
  | main => cases isCall
  | call _ stacked => exact ⟨stacked.has_scopes, stacked.scope_below⟩
  | gosub _ _ => cases isCall
  | event _ _ _ => cases isCall

-- What shares the scope of a call was entered by `GOSUB`, and so was all in between.
theorem shared_above {nearer : List Frame} (stacked : Stacked (other :: nearer ++ frame :: below) count)
    (isCall : frame.kind = .call) (shares : other.scope = frame.scope) :
    ∀ between ∈ other :: nearer, between.kind = .gosub := by
  induction nearer generalizing other count with
  | nil =>
    cases stacked with
    | call _ stacked => exact absurd shares (Nat.ne_of_gt (stacked.scope_below _ List.mem_cons_self))
    | gosub _ _ => simp
    | event _ stacked _ => exact absurd shares (Nat.ne_of_lt (stacked.call_scope isCall).1)
  | cons next nearer ih =>
    have inside : frame ∈ next :: nearer ++ frame :: below := by simp
    cases stacked with
    | call _ stacked => exact absurd shares (Nat.ne_of_gt (stacked.scope_below _ inside))
    | gosub _ stacked => exact List.forall_mem_cons.mpr ⟨rfl, ih stacked shares⟩
    | event _ stacked _ =>
      obtain ⟨fewer, stacked⟩ := stacked.left
      exact absurd shares (Nat.ne_of_lt (stacked.call_scope isCall).1)

end Stacked

namespace Machine

variable {σ : Type} {machine here after : Machine σ} {setup : Setup σ} {most : Nat}

structure Framed (most : Nat) (machine : Machine σ) : Prop where
  rooted : machine.Rooted
  stacked : Stacked machine.frames machine.scopes.size
  room : machine.frames.countP (fun frame => frame.kind != .event) ≤ max 1 most

theorem Framed.length (framed : machine.Framed most) : machine.frames.length ≤ max 1 most + 1 := by
  have split : machine.frames.length = machine.frames.countP (fun frame => frame.kind == .event) +
      machine.frames.countP (fun frame => frame.kind != .event) := by
    rw [List.length_eq_countP_add_countP fun frame : Frame => frame.kind == .event]
    simp only [bne, Bool.not_eq_true, Bool.decide_eq_false]
  have events := framed.stacked.one_event
  have others := framed.room
  omega

theorem Framed.enter {kind : FrameKind} {returnTo scope : Nat} (room : here.frames.length < most) :
    (⟨kind, returnTo, scope⟩ :: here.frames).countP (fun frame => frame.kind != .event) ≤ max 1 most := by
  refine Nat.le_trans List.countP_le_length ?_
  rw [List.length_cons]
  omega

theorem Framed.reshape (framed : here.Framed setup.maxDepth) (reshapes : Run.Reshapes setup here after)
    (rooted : after.Rooted) : after.Framed setup.maxDepth := by
  have stacked := framed.stacked
  have room := framed.room
  cases reshapes with
  | works worked =>
    refine ⟨rooted, ?_, ?_⟩
    · rw [worked.frames, worked.affects.size]
      exact stacked
    · rw [worked.frames]
      exact room
  | calls returnTo space frames scopes _ _ =>
    refine ⟨rooted, ?_, frames ▸ Framed.enter space⟩
    rw [frames, scopes, Array.size_push]
    exact stacked.call returnTo
  | gosubs returnTo space frames scopes _ _ =>
    refine ⟨rooted, ?_, frames ▸ Framed.enter space⟩
    rw [frames, scopes, scope]
    cases entered : here.frames with
    | nil =>
      rw [entered] at stacked
      cases stacked
    | cons outer rest =>
      rw [entered] at stacked
      exact stacked.gosub returnTo
  | returns frame outer rest entered frames scopes _ _ =>
    rw [entered] at stacked room
    refine ⟨rooted, ?_, ?_⟩
    · rw [frames, scopes]
      generalize size : here.scopes.size = count at stacked
      -- Only the frame of a call takes a scope with it.
      cases stacked with
      | call returnTo stacked => simpa [size] using stacked
      | gosub returnTo stacked => simpa [size] using stacked
      | event returnTo stacked alone => simpa [size] using stacked
    · rw [List.countP_cons] at room
      rw [frames]
      omega

end Machine

namespace Run

variable {σ : Type} {setup : Setup σ} {machine : Machine σ} {most : Nat}

theorem ready_frames (setup : Setup σ) (machine : Machine σ) :
    (ready setup machine).frames = machine.frames ∨ (∀ frame ∈ machine.frames, frame.kind ≠ .event) ∧
      (ready setup machine).frames = ⟨.event, machine.next, 0⟩ :: machine.frames := by
  have polled := poll_control setup machine
  have frames : (pollEvents setup.devices (machine.setPhase .running)).frames = machine.frames :=
    congrArg Control.frames polled
  have next : (pollEvents setup.devices (machine.setPhase .running)).next = machine.next :=
    congrArg Control.next polled
  rw [ready]
  obtain ⟨still, -⟩ | ⟨key, data, rest, -, alone, ⟨-, dropped⟩ | ⟨handler, -, entered⟩⟩ :=
    deliver_cases (pollEvents setup.devices (machine.setPhase .running))
  · rw [still]
    exact .inl frames
  · rw [dropped]
    exact .inl frames
  · rw [entered, next, frames]
    exact .inr ⟨frames ▸ alone, rfl⟩

theorem ready_framed (setup : Setup σ) (framed : machine.Framed most) : (ready setup machine).Framed most := by
  have scopes := (ready_cells setup machine).2.1
  refine ⟨ready_rooted setup framed.rooted, ?_, ?_⟩
  · rcases ready_frames setup machine with same | ⟨alone, entered⟩
    · rw [same, scopes]
      exact framed.stacked
    · rw [entered, scopes]
      exact framed.stacked.event _ alone
  · rcases ready_frames setup machine with same | ⟨_, entered⟩
    · rw [same]
      exact framed.room
    · rw [entered]
      simpa using framed.room

theorem step_framed : Upholds (Machine.Framed setup.maxDepth) (step setup) := by
  intro machine framed
  by_cases goes : machine.phase = .idle ∨ machine.phase = .running
  · exact (ready_framed setup framed).reshape (step_shapes framed.rooted goes) (step_rooted machine framed.rooted)
  · rw [on_step_still goes]
    exact framed

theorem resume_framed (reply : Except DeviceError Reply) :
    Upholds (Machine.Framed most) (resume reply : Run σ Unit) := by
  intro machine framed
  cases waits : machine.pending with
  | none =>
    rw [on_resume_nothing waits]
    exact framed
  | some pending =>
    have answers := resume_answers framed.rooted waits reply
    refine ⟨resume_rooted reply machine framed.rooted, ?_, ?_⟩
    · rw [answers.frames, answers.scopes]
      exact framed.stacked
    · rw [answers.frames]
      exact framed.room

theorem reset_framed (machine : Machine σ) : machine.reset.Framed most :=
  ⟨reset_rooted machine, .main, Nat.le_max_left 1 most⟩

theorem call_framed (call : HostCall) : Upholds (Machine.Framed setup.maxDepth) (call.run setup) := by
  cases restarts : call.restarts with
  | false =>
    refine upholds_call step_framed resume_framed (fun machine world events framed => ?_) restarts
    exact ⟨⟨{ framed.rooted.keeps with }, framed.rooted.forest, framed.rooted.waits⟩, framed.stacked, framed.room⟩
  | true =>
    cases call with
    | load image => exact fun _ _ => reset_framed _
    | reset => exact fun _ _ => reset_framed _
    | _ => cases restarts

end Run

namespace Machine

variable {σ : Type} (setup : Setup σ)

theorem create_framed (world : σ) : (create world).Framed setup.maxDepth :=
  ⟨after_all_rooted setup world [], .main, Nat.le_max_left 1 setup.maxDepth⟩

theorem after_all_framed {machine : Machine σ} (framed : machine.Framed setup.maxDepth) (calls : List HostCall) :
    (machine.afterAll setup calls).Framed setup.maxDepth :=
  after_all_holds setup (fun call _ => Run.call_framed call) framed

end Machine

/-- Whatever a host has done, the frame of the main routine is the last one and the only one of its kind, and `RET`
does not leave it. At most one frame is that of a handler, which has the scope of the main routine. A frame entered by
`GOSUB` has the scope of the frame below it. The scope of a call is shared by no frame below, and above only by frames
entered by `GOSUB` that stand directly on it. There is at most one frame more than there may be. -/
theorem frames_stay_stacked {σ : Type} (setup : Setup σ) (deep : 1 ≤ setup.maxDepth) (world : σ) (calls : List HostCall) :
    let machine := (Machine.create world).afterAll setup calls
    (∃ above, machine.frames = above ++ [Machine.mainFrame] ∧ (∀ frame ∈ above, frame.kind ≠ .main) ∧
        (above = [] → (Run.execute setup .ret).on machine = (.error (.ofFault .returnWithoutGosub), machine))) ∧
      (machine.frames.countP (fun frame => frame.kind == .event) ≤ 1 ∧
        ∀ frame ∈ machine.frames, frame.kind = .event → frame.scope = Machine.mainFrame.scope) ∧
      (∀ above frame outer below, machine.frames = above ++ frame :: outer :: below → frame.kind = .gosub →
        frame.scope = outer.scope) ∧
      (∀ above frame below, machine.frames = above ++ frame :: below → frame.kind = .call →
        (∀ other ∈ below, other.scope ≠ frame.scope) ∧
          ∀ higher other nearer, above = higher ++ other :: nearer → other.scope = frame.scope →
            ∀ between ∈ other :: nearer, between.kind = .gosub) ∧
      machine.frames.length ≤ setup.maxDepth + 1 ∧ ∀ frame ∈ machine.frames, frame.scope < machine.scopes.size := by
  intro machine
  have framed : machine.Framed setup.maxDepth := Machine.after_all_framed setup (Machine.create_framed setup world) calls
  have stacked := framed.stacked
  refine ⟨?_, ⟨stacked.one_event, stacked.event_scope⟩, ?_, ?_, ?_, stacked.scope_below⟩
  · obtain ⟨above, frames, others⟩ := stacked.has_main
    refine ⟨above, frames, others, fun alone => ?_⟩
    rw [alone] at frames
    rw [Run.execute, Run.ret, Run.on_seq (Run.on_get machine), frames]
    rfl
  -- The three laws of frames are read off the stack below the frame in question, which is well formed as a suffix.
  · intro above frame outer below frames isGosub
    obtain ⟨fewer, left⟩ := (frames ▸ stacked).left
    exact left.gosub_scope isGosub
  · intro above frame below frames isCall
    rw [frames] at stacked
    constructor
    · intro other inside
      obtain ⟨fewer, left⟩ := stacked.left
      exact Nat.ne_of_lt ((left.call_scope isCall).2 other inside)
    · intro higher other nearer isAbove shares
      rw [isAbove, List.append_assoc] at stacked
      obtain ⟨fewer, left⟩ := stacked.left
      exact left.shared_above isCall shares
  · have length := framed.length
    omega

def sampleDeep : String :=
  "ON EVENT \"k\" GOSUB H\nCALL S\nEND\nH: GOSUB G\nRETURN\nG: B = 1\nRETURN\nSUB S\nA = 1\nEND SUB\n"

def deepened (image : Image) : Machine Bench :=
  (Machine.create Bench.empty).afterAll { Setup.ofDevices Bench.bare .standard with maxDepth := 4 }
    [.load image, .slice 3, .dispatch "k" "", .step]

theorem sample_frames_stay_stacked : ∃ image, compile sampleDeep .standard = .ok image ∧
    (deepened image).frames.map Frame.kind = [.gosub, .event, .call, .main] ∧
      ∀ above frame outer below, (deepened image).frames = above ++ frame :: outer :: below → frame.kind = .gosub →
        frame.scope = outer.scope := by
  obtain ⟨image, compiled, kinds⟩ := exists_compiled sampleDeep
    (fun image => (deepened image).frames.map Frame.kind = [.gosub, .event, .call, .main]) (by decide +kernel)
  have stacked := frames_stay_stacked { Setup.ofDevices Bench.bare .standard with maxDepth := 4 } (by decide) Bench.empty
    [.load image, .slice 3, .dispatch "k" "", .step]
  exact ⟨image, compiled, kinds, stacked.2.2.1⟩

end BasicLang
