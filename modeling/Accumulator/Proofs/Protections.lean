import Accumulator.Proofs.Execution
/-!
# What may be done with a mapping, and when

The mappings of a process change only by system calls that are granted and by what is copied into
them.  `Space` follows them through a run on that rule alone, whatever regions the executor hands
around.  At every moment of a run the region in use is the newest mapping as it then is, and what is
done with it is what its protection allows.
-/

namespace Accumulator.Proofs.Protections

open Execution

/-! ## Mappings from moment to moment -/

/-- The mappings of a process, newest first, and what the newest one held when it was sealed.  A
mapping that is given back stays on the list as it was left, since the kernel may refuse to take
it. -/
structure Space where
  mappings : List Region := []
  sealed : Option Bytes := none
  deriving DecidableEq, Repr

/-- A system call that is granted gives exactly the protection that it asks for. -/
def grant (mappings : List Region) : SystemCall → List Region
  | .map size protection => ⟨List.replicate size.toNat 0, protection⟩ :: mappings
  | .protect _ protection => mappings.modifyHead (·.protect protection)
  | .unmap _ => mappings

namespace Space

def newest? (s : Space) : Option Region :=
  s.mappings.head?

def step (p : Pages) (s : Space) : Event → Space
  | .acquire size (some _) => ⟨grant s.mappings (.map size p.initial), none⟩
  | .acquire _ none => s
  | .write _ code => { s with mappings := s.mappings.modifyHead (·.write code) }
  | .sealing region (some _) =>
      ⟨(p.sealCall? region).elim s.mappings (grant s.mappings), s.newest?.map Region.bytes⟩
  | .sealing _ none => s
  | .invoke _ => s
  | .release _ => s

def after (p : Pages) (s : Space) (events : List Event) : Space :=
  events.foldl (step p) s

end Space

def NeverBoth (p : Pages) (s : Space) : Prop :=
  p.writeXorExecute = true → ∀ mapping ∈ s.mappings,
    ¬ (mapping.protection.writable = true ∧ mapping.protection.executable = true)

/-- The step is taken on the newest mapping, at a moment at which that mapping allows it. -/
def InOrder (p : Pages) (s : Space) : Event → Prop
  | .acquire size granted =>
      ∀ region, granted = some region → (s.step p (.acquire size granted)).newest? = some region
  | .write region _ => s.newest? = some region ∧ region.protection.writable = true
  | .sealing region granted =>
      s.newest? = some region ∧ (p.writeXorExecute = false → granted = some region.protection)
  | .invoke region =>
      s.newest? = some region ∧ region.protection.executable = true ∧ s.sealed = some region.bytes
  | .release region => s.newest? = some region

/-- Every step is in order, and at no moment is a mapping both writable and executable. -/
def Along (p : Pages) (s : Space) : List Event → Prop
  | [] => NeverBoth p s
  | event :: rest => NeverBoth p s ∧ InOrder p s event ∧ Along p (s.step p event) rest

theorem Along.at_split {p : Pages} {s : Space} {first second : List Event}
    (halong : Along p s (first ++ second)) : Along p (s.after p first) second := by
  induction first generalizing s with
  | nil => exact halong
  | cons event first ih => exact ih halong.2.2

theorem Along.neverBoth {p : Pages} {s : Space} {events : List Event}
    (halong : Along p s events) : NeverBoth p s := by
  cases events with
  | nil => exact halong
  | cons event rest => exact halong.1

theorem Along.at_end {p : Pages} {s : Space} {events : List Event} (halong : Along p s events) :
    NeverBoth p (s.after p events) := by
  rw [← List.append_nil events] at halong
  exact halong.at_split

theorem Along.inOrder {p : Pages} {s : Space} {event : Event} {events : List Event}
    (halong : Along p s events) (hnext : events.head? = some event) : InOrder p s event := by
  cases events with
  | nil => cases hnext
  | cons first rest =>
      cases hnext
      exact halong.2.1

theorem Along.append {p : Pages} {s : Space} {first second : List Event}
    (hfirst : Along p s first) (hsecond : Along p (s.after p first) second) :
    Along p s (first ++ second) := by
  induction first generalizing s with
  | nil => exact hsecond
  | cons event first ih => exact ⟨hfirst.1, hfirst.2.1, ih hfirst.2.2 hsecond⟩

/-! ## What the kernel gives -/

theorem acquire_eq_ok {p : Pages} {kernel : Kernel} {size : Int} {region : Region}
    (hacquire : p.acquire kernel size = .ok region) :
    region = ⟨List.replicate size.toNat 0, p.initial⟩ := by
  unfold Pages.acquire at hacquire
  cases hmap : kernel (.map size p.initial) with
  | some refusal =>
      rw [hmap] at hacquire
      cases hacquire
  | none =>
      rw [hmap] at hacquire
      exact (Except.ok.inj hacquire).symm

theorem sealing_eq_ok {p : Pages} {kernel : Kernel} {region : Region} {protection : Protection}
    (hseal : p.sealing kernel region = .ok protection) (mappings : List Region) :
    (p.sealCall? region).elim (region :: mappings) (grant (region :: mappings)) =
      region.protect protection :: mappings := by
  unfold Pages.sealing at hseal
  cases hcall : p.sealCall? region with
  | none =>
      rw [hcall] at hseal
      cases hseal
      rfl
  | some call =>
      have hprotect : call = .protect region.size .readExecute := by
        unfold Pages.sealCall? at hcall
        split at hcall
        · exact (Option.some.inj hcall).symm
        · cases hcall
      cases hkernel : kernel call with
      | some refusal => simp [hcall, hkernel] at hseal
      | none =>
          have hgiven : .readExecute = protection := by simpa [hcall, hkernel] using hseal
          rw [hprotect, ← hgiven]
          rfl

theorem writable_initial (p : Pages) : p.initial.writable = true := by
  unfold Pages.initial
  split <;> rfl

theorem sealing_of_lax {p : Pages} (hlax : p.writeXorExecute = false) (kernel : Kernel)
    (region : Region) : p.sealing kernel region = .ok region.protection := by
  simp [Pages.sealing, Pages.sealCall?, hlax]

theorem sealing_of_strict {p : Pages} (hstrict : p.writeXorExecute = true) {kernel : Kernel}
    {region : Region} {protection : Protection}
    (hseal : p.sealing kernel region = .ok protection) : protection = .readExecute := by
  have hgranted := sealing_eq_ok hseal []
  rw [Pages.sealCall?, if_pos hstrict] at hgranted
  exact congrArg Region.protection (List.cons.inj hgranted).1.symm

theorem protection_of_sealing {p : Pages} {kernel : Kernel} {region : Region}
    {protection : Protection} (hnew : region.protection = p.initial)
    (hseal : p.sealing kernel region = .ok protection) :
    protection.executable = true ∧ (p.writeXorExecute = true → protection.writable = false) := by
  cases hstrict : p.writeXorExecute with
  | false =>
      rw [sealing_of_lax hstrict] at hseal
      rw [← Except.ok.inj hseal, hnew, Pages.initial, hstrict]
      exact ⟨rfl, nofun⟩
  | true =>
      rw [sealing_of_strict hstrict hseal]
      exact ⟨rfl, fun _ => rfl⟩

/-! ## One execution -/

section Execution

variable {p : Pages} {region : Region} {mappings : List Region} {sealed : Option Bytes}
  {rest : List Event}

theorem neverBoth_cons_of_initial (hnew : region.protection = p.initial)
    (hmappings : NeverBoth p ⟨mappings, sealed⟩) (sealed' : Option Bytes) :
    NeverBoth p ⟨region :: mappings, sealed'⟩ := by
  intro hstrict mapping hmapping
  rcases List.mem_cons.1 hmapping with rfl | hmapping
  · rw [hnew, Pages.initial, hstrict]
    exact nofun
  · exact hmappings hstrict mapping hmapping

theorem along_release (hboth : NeverBoth p ⟨region :: mappings, sealed⟩) :
    Along p ⟨region :: mappings, sealed⟩ [.release region] :=
  ⟨hboth, rfl, hboth⟩

theorem along_acquire {s : Space} {size : Nat} {kernel : Kernel}
    (hacquire : p.acquire kernel size = .ok region) (hboth : NeverBoth p s)
    (hrest : Along p ⟨region :: s.mappings, none⟩ rest) :
    Along p s (.acquire size (some region) :: rest) := by
  have hregion := acquire_eq_ok hacquire
  have hstep : s.step p (.acquire size (some region)) = ⟨region :: s.mappings, none⟩ := by
    rw [hregion]
    rfl
  refine ⟨hboth, ?_, ?_⟩
  · intro granted hgranted
    cases hgranted
    rw [hstep]
    rfl
  · rw [hstep]
    exact hrest

theorem along_write {code : Bytes} (hnew : region.protection = p.initial)
    (hboth : NeverBoth p ⟨mappings, sealed⟩)
    (hrest : Along p ⟨region.write code :: mappings, none⟩ rest) :
    Along p ⟨region :: mappings, none⟩ (.write region code :: rest) := by
  have hwritable : region.protection.writable = true := by
    rw [hnew]
    exact writable_initial p
  exact ⟨neverBoth_cons_of_initial hnew hboth none, ⟨rfl, hwritable⟩, hrest⟩

theorem along_seal_invoke {kernel : Kernel} {protection : Protection}
    (hnew : region.protection = p.initial) (hboth : NeverBoth p ⟨mappings, sealed⟩)
    (hseal : p.sealing kernel region = .ok protection) :
    Along p ⟨region :: mappings, none⟩
      [.sealing region (some protection), .invoke (region.protect protection),
        .release (region.protect protection)] := by
  obtain ⟨hexecutable, hreadOnly⟩ := protection_of_sealing hnew hseal
  have hstep : Space.step p ⟨region :: mappings, none⟩ (.sealing region (some protection)) =
      ⟨region.protect protection :: mappings, some region.bytes⟩ := by
    rw [Space.step, sealing_eq_ok hseal]
    rfl
  have hsealed : NeverBoth p ⟨region.protect protection :: mappings, some region.bytes⟩ := by
    intro hstrict mapping hmapping
    rcases List.mem_cons.1 hmapping with rfl | hmapping
    · rintro ⟨hwritable, _⟩
      exact absurd hwritable (by simp [Region.protect, hreadOnly hstrict])
    · exact hboth hstrict mapping hmapping
  refine ⟨neverBoth_cons_of_initial hnew hboth none, ⟨rfl, ?_⟩, ?_⟩
  · intro hlax
    rw [sealing_of_lax hlax] at hseal
    rw [Except.ok.inj hseal]
  · rw [hstep]
    exact ⟨hsealed, ⟨rfl, hexecutable, rfl⟩, along_release hsealed⟩

theorem along_acquire_write {s : Space} {kernel : Kernel} {code : Bytes}
    (hacquire : p.acquire kernel code.length = .ok region) (hboth : NeverBoth p s)
    (hrest : (region.write code).protection = p.initial →
      Along p ⟨region.write code :: s.mappings, none⟩ rest) :
    Along p s (.acquire code.length (some region) :: .write region code :: rest) := by
  have hnew : region.protection = p.initial := by rw [acquire_eq_ok hacquire]
  exact along_acquire hacquire hboth (along_write hnew hboth (hrest hnew))

theorem along_of_outcome {e : Executor} {kernels : Nat → Kernel} {invoke : Region → Invocation}
    (hhost : e.host = .pages p kernels invoke) {code : Bytes} {out : Call × Executor}
    (hout : Outcome e code out) {s : Space} (hboth : NeverBoth p s) : Along p s out.1.events := by
  have hacquires : (nextService e).acquire code.length =
      p.acquire (kernels e.requests) code.length := by
    rw [nextService, hhost]
    rfl
  have hseals : ∀ region, (nextService e).sealing region =
      p.sealing (kernels e.requests) region := by
    intro region
    rw [nextService, hhost]
    rfl
  cases hout with
  | rejected f _ => exact hboth
  | refused f _ _ => exact ⟨hboth, nofun, hboth⟩
  | short region _ hacquire _ =>
      rw [hacquires] at hacquire
      have hnew : region.protection = p.initial := by rw [acquire_eq_ok hacquire]
      apply along_acquire hacquire hboth
      exact along_release (neverBoth_cons_of_initial hnew hboth none)
  | unsealed region f _ hacquire _ hseal =>
      rw [hacquires] at hacquire
      rw [hseals] at hseal
      apply along_acquire_write hacquire hboth
      intro hnew
      have hwritten := neverBoth_cons_of_initial hnew hboth none
      refine ⟨hwritten, ⟨rfl, ?_⟩, along_release hwritten⟩
      intro hlax
      rw [sealing_of_lax hlax] at hseal
      cases hseal
  | returned region protection value _ hacquire _ hseal _ =>
      rw [hacquires] at hacquire
      rw [hseals] at hseal
      apply along_acquire_write hacquire hboth
      intro hnew
      exact along_seal_invoke hnew hboth hseal
  | aborted region protection message _ hacquire _ hseal _ =>
      rw [hacquires] at hacquire
      rw [hseals] at hseal
      apply along_acquire_write hacquire hboth
      intro hnew
      exact along_seal_invoke hnew hboth hseal

end Execution

/-! ## Runs -/

theorem along_history {p : Pages} {kernels : Nat → Kernel} {invoke : Region → Invocation}
    (e : Executor) (hhost : e.host = .pages p kernels invoke) (codes : List Bytes) {s : Space}
    (hboth : NeverBoth p s) : Along p s (history e codes) := by
  induction codes generalizing e s with
  | nil => exact hboth
  | cons code codes ih =>
      have hcall := along_of_outcome hhost (outcome_execute e code) hboth
      rw [history, callsOf, List.flatMap_cons]
      exact hcall.append (ih _ (by rw [host_execute, hhost]) hcall.at_end)

/-- Every moment of a run of any length, on pages of either discipline and under kernels that may
refuse any call.  What is copied goes into the newest mapping while that is writable, and what is
called lies in it while it is executable.  Under the strict discipline no mapping is ever both, and
the bytes that are called are those that were sealed; otherwise sealing leaves all mappings as they
are, and does not fail. -/
theorem protections_respected (p : Pages) (kernels : Nat → Kernel) (invoke : Region → Invocation)
    (requests : Nat) (counters : Counters) (codes : List Bytes) {before after : List Event}
    (hmoment : history { host := .pages p kernels invoke, requests, counters } codes =
      before ++ after) :
    let now := ({} : Space).after p before
    (∀ region code, after.head? = some (.write region code) →
      now.newest? = some region ∧ region.protection.writable = true) ∧
    (∀ region, after.head? = some (.invoke region) →
      now.newest? = some region ∧ region.protection.executable = true) ∧
    (p.writeXorExecute = true →
      (∀ mapping ∈ now.mappings,
        ¬ (mapping.protection.writable = true ∧ mapping.protection.executable = true)) ∧
      ∀ region, after.head? = some (.invoke region) → now.sealed = some region.bytes) ∧
    (p.writeXorExecute = false →
      ∀ region granted, after.head? = some (.sealing region granted) →
        now.newest? = some region ∧ granted = some region.protection ∧
        (now.step p (.sealing region granted)).mappings = now.mappings) := by
  intro now
  have hstart : NeverBoth p {} := fun _ mapping hmapping => nomatch hmapping
  have hrun := along_history { host := .pages p kernels invoke, requests, counters } rfl codes hstart
  rw [hmoment] at hrun
  have hrest : Along p now after := hrun.at_split
  refine ⟨?_, ?_, ?_, ?_⟩
  · intro region code hnext
    exact hrest.inOrder hnext
  · intro region hnext
    obtain ⟨hnewest, hexecutable, _⟩ := hrest.inOrder hnext
    exact ⟨hnewest, hexecutable⟩
  · intro hstrict
    refine ⟨hrest.neverBoth hstrict, ?_⟩
    intro region hnext
    exact (hrest.inOrder hnext).2.2
  · intro hlax region granted hnext
    obtain ⟨hnewest, hgranted⟩ := hrest.inOrder hnext
    refine ⟨hnewest, hgranted hlax, ?_⟩
    rw [hgranted hlax, Space.step, Pages.sealCall?, hlax]
    rfl

def onlyMaps : Kernel
  | .map _ _ => none
  | _ => some .unknown

/-- Two executions under the strict discipline, at the moment when the code of the second one is
called.  For the first one the kernel refused to seal the region and to take it back, so a mapping
is left of it, still writable, beside the one that is now executable. -/
theorem protections_respected_mapping_left :
    let kernels (k : Nat) : Kernel := if k = 0 then onlyMaps else .standard
    let host : Host := .pages ⟨true⟩ kernels Invocation.emulate
    let events := history { host } [[Executor.returnByte], [Executor.returnByte]]
    let now := ({} : Space).after ⟨true⟩ (events.take 7)
    let left : Region := ⟨[Executor.returnByte], .readWrite⟩
    let called : Region := ⟨[Executor.returnByte], .readExecute⟩
    now.mappings = [called, left] ∧
    (events.drop 7).head? = some (.invoke called) ∧
    now.newest? = some called ∧ now.sealed = some called.bytes ∧
    ∀ mapping ∈ now.mappings,
      ¬ (mapping.protection.writable = true ∧ mapping.protection.executable = true) := by
  intro kernels host events now left called
  obtain ⟨_, hinvoke, hstrict, _⟩ :=
    protections_respected ⟨true⟩ kernels Invocation.emulate 0 {} _
      (List.take_append_drop 7 events).symm
  have hcalled : (events.drop 7).head? = some (.invoke called) := by decide
  refine ⟨by decide, hcalled, (hinvoke called hcalled).1, ?_, (hstrict rfl).1⟩
  exact (hstrict rfl).2 called hcalled

end Accumulator.Proofs.Protections
