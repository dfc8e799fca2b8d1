import BasicLang.Proofs.Code.Parameters
import BasicLang.Proofs.Machine.FrameStack
import BasicLang.Proofs.Machine.Leaving

set_option autoImplicit false

namespace BasicLang

inductive Past (image : Image) (base : List Frame) : Nat → List Frame → Prop where
  | here (place : Nat) (past : ¬image.Binds place) : Past image base place base
  | inner (place : Nat) (frame : Frame) (rest : List Frame) (entered : image.Binds place → frame.kind = .call)
      (outer : Past image base frame.returnTo rest) : Past image base place (frame :: rest)

section Binding

variable {image : Image} {symbols : SymbolTable} {spans : List Span} {span : Span} {base frames : List Frame}
  {place next : Nat} {here after : Control} {instruction : Instruction}

theorem Past.suffix (past : Past image base place frames) : base <:+ frames := by
  induction past with
  | here => exact List.suffix_refl _
  | inner _ frame rest _ _ ih => exact ih.trans (List.suffix_cons frame rest)

theorem Past.move (past : Past image base place frames) (binds : image.Binds next → image.Binds place) :
    Past image base next frames := by
  cases past with
  | here _ past => exact .here next fun isNext => past (binds isNext)
  | inner _ frame rest entered outer => exact .inner next frame rest (fun isNext => entered (binds isNext)) outer

theorem Past.leave {frame : Frame} (past : Past image base place (frame :: frames)) (isInner : base <:+ frames) :
    Past image base frame.returnTo frames := by
  cases past with
  | here => exact absurd isInner.length_le (by simp)
  | inner _ _ _ _ outer => exact outer

theorem Past.binding (past : Past image base place frames) (binds : image.Binds place) :
    ∃ frame rest, frames = frame :: rest ∧ frame.kind = .call ∧ base <:+ rest := by
  cases past with
  | here _ past => exact absurd binds past
  | inner _ frame rest entered outer => exact ⟨frame, rest, rfl, entered binds, outer.suffix⟩

theorem Image.Receives.onward (receives : image.Receives symbols spans) (isSpan : span ∈ spans)
    (inside : span.Has here.next) (isImage : here.image = image)
    (found : image.instructions[here.next]? = some instruction)
    (leads : instruction.op.Leads { here with next := here.next + 1 } after) (same : after.frames = here.frames)
    (binds : image.Binds after.next) : image.Binds here.next := by
  have follows := receives.follows here.next instruction found
  have aims := receives.aims span isSpan here.next instruction inside found
  obtain ⟨op, locus⟩ := instruction
  have falls (goes : op.fallsThrough = true) (goesOn : after.next = here.next + 1) : image.Binds here.next := by
    have bound := follows goes (goesOn ▸ binds)
    cases op with
    | popParam name ty => exact ⟨name, ty, locus, found⟩
    | _ => cases bound
  have waits (goes : op.fallsThrough = true) (awaits : { here with next := here.next + 1 : Control }.Awaits after) :
      image.Binds here.next := by
    refine falls goes ?_
    obtain rfl | ⟨_, rfl⟩ := awaits <;> rfl
  have branches {target : Target} (goes : op.fallsThrough = true) (isAim : target ∈ op.aims)
      (leads : after = { here with next := here.next + 1 } ∨
        ∃ place, target = .resolved place ∧ after = { here with next := place }) : image.Binds here.next := by
    obtain rfl | ⟨place, rfl, rfl⟩ := leads
    · exact falls goes rfl
    · exact absurd binds (aims _ isAim)
  cases op with
  | jump target =>
    obtain ⟨place, rfl, rfl⟩ := leads
    exact absurd binds (aims _ List.mem_cons_self)
  | jumpIfZero target | jumpIfNonzero target | forLoop target => exact branches rfl List.mem_cons_self leads
  | call target | gosub target =>
    obtain ⟨_, _, -, rfl⟩ := leads
    simp at same
  | ret =>
    obtain ⟨_, _, _, frames, rfl⟩ := leads
    exact absurd (congrArg List.length (same.trans frames)) (by simp)
  | stop =>
    have behind : after.next = image.instructions.size := by
      obtain rfl | ⟨_, rfl⟩ := leads <;> exact congrArg (fun image : Image => image.instructions.size) isImage
    obtain ⟨_, _, _, isFound⟩ := binds
    exact absurd (Array.getElem?_eq_some_iff.mp isFound).1 (by omega)
  | onEvent target =>
    obtain ⟨_, _, -, rfl⟩ := leads
    exact falls rfl rfl
  | _ => exact waits rfl leads

theorem Image.Receives.past (receives : image.Receives symbols spans) :
    image.Carries spans (fun frames => base <:+ frames) (Past image base) where
  interrupts := by
    rintro place frames handler ⟨span, isSpan, source, inside, locus, found⟩ past
    exact .inner handler ⟨.event, place, 0⟩ frames
      (fun binds => absurd binds (receives.aims span isSpan source _ inside found handler List.mem_cons_self)) past
  leads := by
    intro here after span instruction isImage isSpan inside past found leads led isInner
    have returns (goes : instruction.op.fallsThrough = true) (unbound : instruction.op.bindsParameter = false) :
        Past image base (here.next + 1) here.frames := by
      refine past.move fun binds => ?_
      rw [receives.follows here.next instruction found goes binds] at unbound
      cases unbound
    obtain ⟨op, locus⟩ := instruction
    -- A jump never aims at the code that binds parameters; that code is entered by a call and left by falling through.
    cases led with
    | stays _ same =>
      rw [same]
      exact past.move (receives.onward isSpan inside isImage found leads same)
    | subroutine scope isGosub _ _ entered =>
      obtain ⟨target, rfl⟩ : ∃ target, op = .gosub target := isGosub
      obtain ⟨place, scope, rfl, rfl⟩ := leads
      refine .inner _ _ _ (fun binds => ?_) (returns rfl rfl)
      exact absurd binds (receives.aims span isSpan here.next _ inside found place List.mem_cons_self)
    | calls callee scope isCall _ _ _ _ entered =>
      obtain ⟨target, rfl⟩ : ∃ target, op = .call target := isCall
      obtain ⟨place, scope, rfl, rfl⟩ := leads
      exact .inner _ _ _ (fun _ => rfl) (returns rfl rfl)
    | returns frame _ _ left back =>
      rw [left] at past
      exact back ▸ past.leave isInner
    | ends _ same behind =>
      rw [same]
      refine past.move fun ⟨_, _, _, isFound⟩ => ?_
      exact absurd (Array.getElem?_eq_some_iff.mp isFound).1 (by omega)

end Binding

def scopeIn (frames : List Frame) : Nat := (frames.head?.map Frame.scope).getD 0

def scopesIn (frames : List Frame) : Nat := frames.countP (fun frame => frame.kind == .call) + 1

structure Ward.Local (base : List Frame) (ward : Ward) : Prop where
  home : ward.home = scopeIn base
  limit : ∀ limit, ward.hold = .lent limit → limit ≤ scopesIn base

structure Machine.Above {σ : Type} (most : Nat) (image : Image) (spans : List Span) (base : List Frame) (machine : Machine σ) :
    Prop extends machine.Carried image spans (Past image base) where
  framed : machine.Framed most
  suffix : base <:+ machine.frames

section Standing

variable {σ : Type} {setup : Setup σ} {image : Image} {symbols : SymbolTable} {spans : List Span} {base frames : List Frame}
  {machine : Machine σ} {ward : Ward} {kept : Option Cell} {most : Nat}

theorem scopes_in_suffix (isInner : base <:+ frames) : scopesIn base ≤ scopesIn frames :=
  Nat.succ_le_succ (isInner.sublist.countP_le)

theorem Stacked.scope_in {count : Nat} (stacked : Stacked frames count) (isInner : base <:+ frames) :
    scopeIn base < scopesIn base := by
  obtain ⟨above, rfl⟩ := isInner
  cases base with
  | nil => exact Nat.one_pos
  | cons frame below =>
    obtain ⟨fewer, left⟩ := stacked.left
    have inside := left.scope_below frame List.mem_cons_self
    rwa [left.counted] at inside

namespace Machine.Above

theorem step (contained : image.Contained spans) (receives : image.Receives symbols spans)
    (above : machine.Above setup.maxDepth image spans base) (isInner : base <:+ ((Run.step setup).on machine).2.frames) :
    ((Run.step setup).on machine).2.Above setup.maxDepth image spans base :=
  ⟨Run.step_carried contained receives.past above.toCarried isInner, Run.step_framed machine above.framed, isInner⟩

theorem resume (reply : Except DeviceError Reply) :
    Run.Upholds (Machine.Above most image spans base) (Run.resume reply : Run σ Unit) := by
  intro machine above
  refine ⟨Run.resume_carried reply machine above.toCarried, Run.resume_framed reply machine above.framed, ?_⟩
  rw [(Run.resume_in_place reply machine).2.1]
  exact above.suffix

theorem outside (above : machine.Above most image spans base) (world : σ) (events : List (String × String)) :
    Machine.Above most image spans base { machine with world, events } := by
  have framed := above.framed
  exact ⟨⟨⟨above.orderly, above.loaded, above.nested⟩, above.declared, above.held⟩,
    ⟨⟨{ framed.rooted.keeps with }, framed.rooted.forest, framed.rooted.waits⟩, framed.stacked, framed.room⟩, above.suffix⟩

theorem returning (above : machine.Above setup.maxDepth image spans base)
    (goes : machine.phase = .idle ∨ machine.phase = .running) (isInner : base <:+ ((Run.step setup).on machine).2.frames)
    {frame : Frame} {rest : List Frame} (isReturn : image.Fetches (Run.ready setup machine).next .ret)
    (frames : (Run.ready setup machine).frames = frame :: rest) (isCall : frame.kind = .call) : base <:+ rest := by
  have stacked := (Run.ready_framed setup above.framed).stacked
  obtain ⟨locus, found⟩ := isReturn
  rw [Run.on_step_ready goes, (Run.ready_waits setup machine).2.2, above.loaded, found] at isInner
  cases rest with
  | nil =>
    rw [frames] at stacked
    generalize (Run.ready setup machine).scopes.size = count at stacked
    cases stacked with
    | main => cases isCall
    | call _ stacked | event _ stacked _ => cases stacked
  | cons outer rest =>
    dsimp only at isInner
    rw [Run.execute, Run.ret, Run.on_seq (Run.on_get _)] at isInner
    dsimp only at isInner
    rw [frames, Run.on_modify] at isInner
    dsimp only at isInner
    split at isInner
    · rwa [(Machine.set_phase_only _ _).choose_spec] at isInner
    · exact isInner

theorem spares (receives : image.Receives symbols spans) (above : machine.Above setup.maxDepth image spans base)
    (isLocal : ward.Local base) (unshared : ward.name ∉ image.shared)
    (goes : machine.phase = .idle ∨ machine.phase = .running) (isInner : base <:+ ((Run.step setup).on machine).2.frames)
    {instruction : Instruction} (found : image.instructions[(Run.ready setup machine).next]? = some instruction)
    (named : instruction.op.changes ward.name = true → (Run.ready setup machine).scope ≠ scopeIn base) :
    ward.Spares (Run.ready setup machine) instruction.op where
  name := fun changes => by
    have loaded : (Run.ready setup machine).image = image := (Run.ready_waits setup machine).2.2.trans above.loaded
    have home : (Run.ready setup machine).scopeOf ward.name = (Run.ready setup machine).scope := by
      rw [Machine.scopeOf, loaded, if_neg (by simpa using unshared)]
    rw [home, isLocal.home]
    exact ⟨named changes, named changes⟩
  parameters := fun name ty limit isBinding isLent => by
    obtain ⟨op, locus⟩ := instruction
    obtain rfl : op = .popParam name ty := isBinding
    have past := (Run.ready_carried setup receives.past above.toCarried goes).2
    obtain ⟨frame, rest, frames, isCall, isInner⟩ := past.binding ⟨name, ty, locus, found⟩
    have stacked := (Run.ready_framed setup above.framed).stacked
    refine Nat.le_trans (isLocal.limit limit isLent) (Nat.le_trans (scopes_in_suffix isInner) ?_)
    rw [Machine.scope, frames]
    rw [frames] at stacked
    generalize (Run.ready setup machine).scopes.size = count at stacked
    cases stacked with
    | call returnTo stacked => exact Nat.le_of_eq stacked.counted.symm
    | main | gosub | event => cases isCall
  home := fun frame rest isReturn frames isCall => by
    obtain ⟨op, locus⟩ := instruction
    obtain rfl : op = .ret := isReturn
    have isRest := above.returning goes isInner ⟨locus, found⟩ frames isCall
    have below := above.framed.stacked.scope_in above.suffix
    rw [isLocal.home]
    exact Nat.le_of_lt_succ (Nat.lt_of_lt_of_le below (scopes_in_suffix isRest))

end Machine.Above

theorem Machine.loaded_above (setup : Setup σ) (contained : image.Contained spans) (world : σ) {calls : List HostCall}
    (sameImage : ∀ call ∈ calls, ∀ other, call ≠ .load other)
    (past : ¬image.Binds ((create world).afterAll setup (.load image :: calls)).next) :
    ((create world).afterAll setup (.load image :: calls)).Above setup.maxDepth image spans
      ((create world).afterAll setup (.load image :: calls)).frames := by
  have carried := loaded_carries setup contained contained.called ⟨nofun, trivial⟩ world sameImage
  have framed := after_all_framed setup (create_framed setup world) (.load image :: calls)
  exact ⟨⟨carried.toNests, carried.declared, fun _ => .here _ past⟩, framed, List.suffix_refl _⟩

namespace Machine.Above

variable {spared : Machine σ → Prop} {first last : Machine σ}

theorem keeps_step (receives : image.Receives symbols spans) (above : machine.Above setup.maxDepth image spans base)
    (isLocal : ward.Local base) (unshared : ward.name ∉ image.shared)
    (isInner : base <:+ ((Run.step setup).on machine).2.frames)
    (named : ∀ instruction, image.instructions[(Run.ready setup machine).next]? = some instruction →
      instruction.op.changes ward.name = true → (Run.ready setup machine).scope ≠ scopeIn base)
    (keeps : machine.Keeps ward kept) : ((Run.step setup).on machine).2.Keeps ward kept := by
  by_cases goes : machine.phase = .idle ∨ machine.phase = .running
  · refine Run.step_keeps keeps fun instruction found _ => ?_
    rw [above.loaded] at found
    exact above.spares receives isLocal unshared goes isInner found (named instruction found)
  · rw [Run.on_step_still goes]
    exact keeps

theorem keeps_advance {op : Op} {after : Machine σ} (receives : image.Receives symbols spans)
    (above : machine.Above setup.maxDepth image spans base) (isLocal : ward.Local base) (unshared : ward.name ∉ image.shared)
    (advances : machine.Advances setup after) (isInner : base <:+ after.frames) (fetches : image.Fetches machine.next op)
    (unchanged : op.changes ward.name = false) (keeps : machine.Keeps ward kept) : after.Keeps ward kept := by
  obtain ⟨calm, stepped⟩ := advances
  obtain rfl : ((Run.step setup).on machine).2 = after := congrArg Prod.snd stepped
  obtain ⟨world, events, notices, ready⟩ := ready_calm calm
  refine above.keeps_step receives isLocal unshared isInner (fun instruction found changes => ?_) keeps
  obtain ⟨locus, isFound⟩ := fetches
  rw [ready, isFound] at found
  cases found
  rw [unchanged] at changes
  cases changes

theorem onward (contained : image.Contained spans) (receives : image.Receives symbols spans)
    (above : first.Above setup.maxDepth image spans base)
    (spares : ∀ machine : Machine σ, spared machine → base <:+ ((Run.step setup).on machine).2.frames)
    (onward : Onward setup spared first last) : last.Above setup.maxDepth image spans base :=
  onward.holds _ above (fun machine above isSpared => above.step contained receives (spares machine isSpared))
    Machine.Above.resume fun _ world events above => above.outside world events

theorem keeps_onward (contained : image.Contained spans) (receives : image.Receives symbols spans)
    (above : first.Above setup.maxDepth image spans base) (isLocal : ward.Local base) (unshared : ward.name ∉ image.shared)
    (spares : ∀ machine : Machine σ, spared machine → base <:+ ((Run.step setup).on machine).2.frames)
    (named : ∀ machine : Machine σ, spared machine → ∀ instruction,
      image.instructions[(Run.ready setup machine).next]? = some instruction →
      instruction.op.changes ward.name = true → (Run.ready setup machine).scope ≠ scopeIn base)
    (keeps : first.Keeps ward kept) (onward : Onward setup spared first last) : last.Keeps ward kept := by
  refine (onward.holds (fun machine => machine.Above setup.maxDepth image spans base ∧ machine.Keeps ward kept)
    ⟨above, keeps⟩ ?_ ?_ ?_).2
  · rintro machine ⟨above, keeps⟩ isSpared
    have isInner := spares machine isSpared
    exact ⟨above.step contained receives isInner,
      above.keeps_step receives isLocal unshared isInner (named machine isSpared) keeps⟩
  · exact fun reply machine both => ⟨resume reply machine both.1, Run.resume_keeps reply machine both.2⟩
  · exact fun machine world events both => ⟨both.1.outside world events, { both.2 with }⟩

end Machine.Above

end Standing

section Lending

variable {σ : Type} {machine : Machine σ} {home limit : Nat} {name : String} {value : Value} {number : Float} {cell : Cell}
  {items : List StackItem}

theorem Machine.Keeps.lend (keeps : machine.Keeps ⟨home, name, .hidden (.double number)⟩ (some cell)) (limit : Nat) :
    Machine.Keeps ⟨home, name, .lent limit⟩ (some cell) { machine with stack := .reference cell :: machine.stack } := by
  have isLent : Ward.Lent ⟨home, name, .lent limit⟩ := ⟨limit, rfl⟩
  have lent : machine.Keeps ⟨home, name, .lent limit⟩ (some cell) :=
    { keeps with
      stack := fun other inside => ⟨(keeps.stack other inside).1, fun _ => isLent⟩
      scopes := fun scope other found isBound => by
        obtain ⟨below, knows⟩ := keeps.scopes scope other found isBound
        refine ⟨below, fun isKept => ?_⟩
        obtain same | ⟨_, hidden, -⟩ := knows isKept
        · exact .inl same
        · cases hidden
      waits := fun _ _ _ _ _ => isLent
      holds := fun found isKept => by
        obtain ⟨below, content, bound⟩ := keeps.holds found isKept
        refine ⟨below, .inl ?_, bound⟩
        rw [show machine.store.content found = .plain (.double number) from content]
        rfl }
  exact lent.push (keeps.holds cell rfl).1 fun _ => isLent

/-- When the only reference to the kept cell is used up, no newer scope is there and nothing is waited for, the machine
comes to the cell by its name only. -/
theorem Machine.Keeps.settle (keeps : machine.Keeps ⟨home, name, .lent limit⟩ (some cell)) (fewer : items ⊆ machine.stack)
    (alone : .reference cell ∉ items) (noNewer : machine.scopes.size ≤ limit) (waitsNot : machine.pending = none)
    (scalar : value.isScalar = true) : Machine.Keeps ⟨home, name, .hidden value⟩ (some cell)
      { machine with stack := items, store := machine.store.write cell value } := by
  obtain ⟨below, -, bound⟩ := keeps.holds cell rfl
  have evolves := Store.write_evolves keeps.closed cell value
  have contents (other : Cell) : (machine.store.write cell value).content other =
      if other = cell then .plain value else machine.store.content other := by
    rw [Store.write_scalar scalar, Store.content_put _ _ _ _ below]
  refine ⟨evolves.closed, fun owner part isPart => ?_, fun other inside => ?_, fun scope other found isBound => ?_,
    fun pending isPending => ?_, keeps.depth, fun found isKept => ?_⟩
  · rw [contents] at isPart
    split at isPart
    · cases isPart
    · exact keeps.parts owner part isPart
  · refine ⟨Nat.lt_of_lt_of_le (keeps.stack other (fewer inside)).1 evolves.size, fun isKept => ?_⟩
    cases isKept
    exact absurd inside alone
  · obtain ⟨inside, knows⟩ := keeps.scopes scope other found isBound
    refine ⟨Nat.lt_of_lt_of_le inside evolves.size, fun isKept => ?_⟩
    obtain same | ⟨_, isLent, newer⟩ := knows isKept
    · exact .inl same
    · cases isLent
      rw [Array.getD_eq_getD_getElem?, Array.getElem?_eq_none (Nat.le_trans noNewer newer)] at isBound
      cases isBound
  · rw [waitsNot] at isPending
    cases isPending
  · cases isKept
    exact ⟨Nat.lt_of_lt_of_le below evolves.size, by rw [contents, if_pos rfl]; rfl, bound⟩

end Lending

end BasicLang
