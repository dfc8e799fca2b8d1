import BasicLang.Device.Bench
import BasicLang.Proofs.Code.Generation
import BasicLang.Proofs.Machine.Suspension

set_option autoImplicit false

namespace BasicLang

inductive Post (σ : Type) where
  | arrives (key data : String)
  -- With the machine before its next instruction, and what becomes of it.
  | taken (key data : String) (before after : Machine σ)

namespace Post

variable {σ : Type}

def arrival? : Post σ → Option (String × String)
  | .arrives key data => some (key, data)
  | .taken _ _ _ _ => none

def taken? : Post σ → Option (String × String)
  | .arrives _ _ => none
  | .taken key data _ _ => some (key, data)

/-- A running machine in no handler takes the first event that waits. With a handler it is entered, from where the
machine was; otherwise nothing but the queue changes. -/
def Proper : Post σ → Prop
  | .arrives _ _ => True
  | .taken key data before after =>
    before.phase = .running ∧ (∀ frame ∈ before.frames, frame.kind ≠ .event) ∧
      before.events = (key, data) :: after.events ∧
      match before.handlers.get? key with
      | some handler => after =
          { before with
            events := after.events, eventData := data, next := handler
            frames := ⟨.event, before.next, 0⟩ :: before.frames }
      | none => after = { before with events := after.events }

end Post

inductive Posted {σ : Type} : List (String × String) → List (Post σ) → List (String × String) → Prop where
  | nothing (waiting : List (String × String)) : Posted waiting [] waiting
  | arrives {key data : String} {waiting left : List (String × String)} {posts : List (Post σ)}
      (later : Posted (waiting ++ [(key, data)]) posts left) : Posted waiting (.arrives key data :: posts) left
  | taken {key data : String} {before after : Machine σ} {waiting left : List (String × String)}
      {posts : List (Post σ)} (proper : (Post.taken key data before after).Proper) (later : Posted waiting posts left) :
      Posted ((key, data) :: waiting) (.taken key data before after :: posts) left

namespace Posted

variable {σ : Type} {waiting between left : List (String × String)} {posts more : List (Post σ)}

theorem append (posted : Posted waiting posts between) (further : Posted between more left) :
    Posted waiting (posts ++ more) left := by
  induction posted with
  | nothing waiting => exact further
  | arrives later ih => exact .arrives (ih further)
  | taken proper later ih => exact .taken proper (ih further)

theorem arrivals (events waiting : List (String × String)) :
    Posted waiting (events.map fun (key, data) => (Post.arrives key data : Post σ)) (waiting ++ events) := by
  induction events generalizing waiting with
  | nil =>
    rw [List.append_nil]
    exact .nothing waiting
  | cons event events ih =>
    rw [List.append_cons]
    exact .arrives (ih (waiting ++ [event]))

theorem split (posted : Posted waiting (posts ++ more) left) :
    ∃ between, Posted waiting posts between ∧ Posted between more left := by
  induction posts generalizing waiting with
  | nil => exact ⟨waiting, .nothing waiting, posted⟩
  | cons post posts ih =>
    cases posted with
    | arrives later =>
      obtain ⟨between, early, late⟩ := ih later
      exact ⟨between, .arrives early, late⟩
    | taken proper later =>
      obtain ⟨between, early, late⟩ := ih later
      exact ⟨between, .taken proper early, late⟩

theorem in_order (posted : Posted waiting posts left) :
    waiting ++ posts.filterMap Post.arrival? = posts.filterMap Post.taken? ++ left := by
  induction posted with
  | nothing waiting => exact List.append_nil waiting
  | arrives later ih => exact (List.append_cons ..).trans ih
  | taken proper later ih => exact congrArg (List.cons _) ih

theorem all_proper (posted : Posted waiting posts left) : ∀ post ∈ posts, post.Proper := by
  induction posted with
  | nothing waiting => simp
  | arrives later ih => exact List.forall_mem_cons.mpr ⟨trivial, ih⟩
  | taken proper later ih => exact List.forall_mem_cons.mpr ⟨proper, ih⟩

end Posted

namespace Run

variable {σ : Type} (setup : Setup σ)

def arrived (devices : Devices σ) (world : σ) : List (String × String) :=
  (devices.bus.map fun bus => (bus.arrivals world).1).getD []

def deliveryPosts (machine : Machine σ) : List (Post σ) :=
  match machine.events with
  | [] => []
  | (key, data) :: _ =>
    if (deliverEvent machine).events.length < machine.events.length then [.taken key data machine (deliverEvent machine)]
    else []

def stepPosts (machine : Machine σ) : List (Post σ) :=
  if machine.phase = .idle ∨ machine.phase = .running then
    let polled := pollEvents setup.devices (machine.setPhase .running)
    (arrived setup.devices machine.world).map (fun (key, data) => .arrives key data) ++ deliveryPosts polled
  else []

def slicePosts : Nat → Machine σ → List (Post σ)
  | 0, _ => []
  | count + 1, machine => stepPosts setup machine ++
      match (step setup).on machine with
      | (.ok true, after) => slicePosts count after
      | _ => []

end Run

def HostCall.posts {σ : Type} (setup : Setup σ) (machine : Machine σ) : HostCall → List (Post σ)
  | .step => Run.stepPosts setup machine
  | .tick => Run.slicePosts setup setup.budget machine
  | .slice count => Run.slicePosts setup count machine
  | .dispatch key data => [.arrives key data]
  | .load _ | .reset | .resume _ | .service => []

def Machine.posts {σ : Type} (setup : Setup σ) (machine : Machine σ) : List HostCall → List (Post σ)
  | [] => []
  | call :: calls => call.posts setup machine ++ (call.after setup machine).posts setup calls

namespace Run

variable {σ : Type} {setup : Setup σ} {machine : Machine σ}

theorem apart_events : Apart (Machine.events : Machine σ → List (String × String)) where
  computing := fun _ _ _ _ => rfl
  around := fun _ _ _ _ _ _ => rfl
  control := fun _ _ _ _ _ _ _ => rfl

theorem service_keeps_events (machine : Machine σ) : ((service setup).on machine).2.events = machine.events := by
  have upholds : Upholds (fun after : Machine σ => after.events = machine.events) (service setup) :=
    upholds_service (fun _ _ same => same) fun reply after same =>
      (resume_seen apart_events (fun _ _ => rfl) reply after).trans same
  exact upholds machine rfl

theorem poll_posted (devices : Devices σ) (machine : Machine σ) :
    (pollEvents devices machine).events = machine.events ++ arrived devices machine.world ∧
      (pollEvents devices machine).phase = machine.phase := by
  unfold pollEvents arrived
  cases devices.bus with
  | none => exact ⟨(List.append_nil _).symm, rfl⟩
  | some bus => exact ⟨rfl, rfl⟩

theorem delivery_posted (running : machine.phase = .running) :
    Posted machine.events (deliveryPosts machine) (deliverEvent machine).events := by
  have untaken (still : deliverEvent machine = machine) : deliveryPosts machine = [] := by
    unfold deliveryPosts
    rw [still]
    split
    · rfl
    · exact if_neg (Nat.lt_irrefl _)
  have taken {key data : String} {rest : List (String × String)} (waiting : machine.events = (key, data) :: rest)
      (left : (deliverEvent machine).events = rest) :
      deliveryPosts machine = [.taken key data machine (deliverEvent machine)] := by
    simp only [deliveryPosts, waiting, left, List.length_cons, Nat.lt_succ_self, if_true]
  obtain ⟨still, -⟩ | ⟨key, data, rest, waiting, calm, ⟨missing, dropped⟩ | ⟨handler, found, entered⟩⟩ :=
    deliver_cases machine
  · rw [untaken still, still]
    exact .nothing _
  · rw [taken waiting (by rw [dropped]), waiting, dropped]
    exact .taken ⟨running, calm, waiting, by rw [missing]⟩ (.nothing rest)
  · rw [taken waiting (by rw [entered]), waiting, entered]
    exact .taken ⟨running, calm, waiting, by rw [found]⟩ (.nothing rest)

theorem step_keeps_events (goes : machine.phase = .idle ∨ machine.phase = .running) :
    ((step setup).on machine).2.events = (ready setup machine).events :=
  step_seen apart_events goes fun instruction _ => execute_stays apart_events setup instruction.op (fun _ _ _ => rfl)
    (fun _ _ _ => rfl) (fun _ _ _ => rfl) fun _ _ _ => rfl

theorem step_posted (machine : Machine σ) :
    Posted machine.events (stepPosts setup machine) ((step setup).on machine).2.events := by
  unfold stepPosts
  by_cases goes : machine.phase = .idle ∨ machine.phase = .running
  · obtain ⟨notices, started⟩ := machine.set_phase_only .running
    have running : (machine.setPhase .running).phase = .running := by rw [started]
    have world : (machine.setPhase .running).world = machine.world := by rw [started]
    obtain ⟨events, phase⟩ := poll_posted setup.devices (machine.setPhase .running)
    have delivered := delivery_posted (phase.trans running)
    rw [events, set_phase_seen apart_events, world] at delivered
    rw [if_pos goes, step_keeps_events goes]
    exact (Posted.arrivals _ machine.events).append delivered
  · rw [if_neg goes, on_step_still goes]
    exact .nothing _

theorem slice_posted (count : Nat) (machine : Machine σ) :
    Posted machine.events (slicePosts setup count machine) ((slice setup count).on machine).2.events := by
  induction count generalizing machine with
  | zero => exact .nothing _
  | succ count ih =>
    have stepped : Posted machine.events (stepPosts setup machine) ((step setup).on machine).2.events := step_posted machine
    rw [slicePosts, slice, on_bind]
    cases ran : (step setup).on machine with
    | mk result after =>
      rw [ran] at stepped
      cases result with
      | error error => exact stepped.append (.nothing _)
      | ok goesOn =>
        cases goesOn with
        | false => exact stepped.append (.nothing _)
        | true => exact stepped.append (ih after)

theorem call_posted {call : HostCall} (goesOn : call.restarts = false) (machine : Machine σ) :
    Posted machine.events (call.posts setup machine) (call.after setup machine).events := by
  cases call with
  | load image => cases goesOn
  | reset => cases goesOn
  | step =>
    rw [HostCall.after_step]
    exact step_posted machine
  | tick =>
    rw [HostCall.after_tick]
    exact slice_posted setup.budget machine
  | slice count => exact slice_posted count machine
  | resume reply =>
    rw [HostCall.after, HostCall.run, resume_seen apart_events fun _ _ => rfl]
    exact .nothing _
  | service =>
    rw [HostCall.after, HostCall.run, service_keeps_events]
    exact .nothing _
  | dispatch key data => exact .arrives (.nothing _)

end Run

theorem Machine.posted {σ : Type} (setup : Setup σ) (machine : Machine σ) {calls : List HostCall}
    (goOn : ∀ call ∈ calls, call.restarts = false) :
    Posted machine.events (machine.posts setup calls) (machine.afterAll setup calls).events := by
  induction calls generalizing machine with
  | nil => exact .nothing _
  | cons call calls ih =>
    obtain ⟨first, others⟩ := List.forall_mem_cons.mp goOn
    exact (Run.call_posted first machine).append (ih (call.after setup machine) others)

/-- After a program is loaded and until another start, events are taken in the order in which they arrive, each once:
those that arrived are those that were taken, at every time a beginning of them, and those that still wait. Each
is taken by a running machine in no handler, and enters its handler or changes nothing but the queue. -/
theorem events_taken_in_order {σ : Type} (setup : Setup σ) (machine : Machine σ) (image : Image)
    (calls : List HostCall) (goOn : ∀ call ∈ calls, call.restarts = false) :
    let loaded := machine.load setup.devices image
    let posts := loaded.posts setup calls
    posts.filterMap Post.arrival? = posts.filterMap Post.taken? ++ (loaded.afterAll setup calls).events ∧
      (∀ early late, posts = early ++ late →
        early.filterMap Post.taken? <+: early.filterMap Post.arrival?) ∧
      ∀ post ∈ posts, post.Proper := by
  intro loaded posts
  have posted : Posted [] posts (loaded.afterAll setup calls).events := loaded.posted setup goOn
  refine ⟨posted.in_order, fun early late same => ?_, posted.all_proper⟩
  rw [same] at posted
  obtain ⟨waiting, first, -⟩ := posted.split
  exact ⟨waiting, first.in_order.symm⟩

def sampleHandler : String := "ON EVENT \"k\" GOSUB H\nA = 1\nEND\nH: B$ = EVENTDATA$\nRETURN\n"

def sampleArrivals : List HostCall :=
  [.slice 2, .dispatch "k" "1", .dispatch "x" "2", .dispatch "k" "3", .slice 5]

theorem third_event_waits : ∃ image, compile sampleHandler .standard = .ok image ∧
    let loaded := (Machine.create Bench.empty).load Bench.bare image
    let posts := loaded.posts (.ofDevices Bench.bare .standard) sampleArrivals
    posts.filterMap Post.arrival? = [("k", "1"), ("x", "2"), ("k", "3")] ∧
      posts.filterMap Post.taken? = [("k", "1"), ("x", "2")] ∧ ∀ post ∈ posts, post.Proper := by
  obtain ⟨image, compiled, arrived, waits⟩ := exists_compiled sampleHandler
    (fun image =>
      let loaded := (Machine.create Bench.empty).load Bench.bare image
      (loaded.posts (.ofDevices Bench.bare .standard) sampleArrivals).filterMap Post.arrival? =
          [("k", "1"), ("x", "2"), ("k", "3")] ∧
        (loaded.afterAll (.ofDevices Bench.bare .standard) sampleArrivals).events = [("k", "3")])
    (by decide +kernel)
  obtain ⟨inOrder, -, proper⟩ := events_taken_in_order (.ofDevices Bench.bare .standard) (Machine.create Bench.empty)
    image sampleArrivals (by decide)
  refine ⟨image, compiled, arrived, (List.append_left_inj [("k", "3")]).mp ?_, proper⟩
  calc
    _ = _ := congrArg _ waits.symm
    _ = _ := inOrder.symm
    _ = _ := arrived

end BasicLang
