import Accumulator.Proofs.Protections
/-!
# What a region holds, told from its history

The steps taken on a region and the failures that they met tell all about it, without following its
bytes.  Its size is the one that the last successful acquisition asked for, and each of its bytes
comes from the last write that reached it.  `Told` ties the two views together, and every step
keeps it.
-/

namespace Accumulator.Proofs.RegionHistories

open Protections

/-! ## Histories -/

structure Taken where
  step : Memory.Step
  failure : Option Failure
  deriving DecidableEq, Repr

/-- The steps taken since the region was empty at first, newest first, and where they led. -/
structure History where
  taken : List Taken := []
  memory : Memory := {}

namespace History

/-- One more step.  Each step is answered by a kernel of its own, so that the same call may be
granted at one time and refused at another. -/
def next (p : Pages) (h : History) (asked : Kernel × Memory.Step) : History :=
  let result := h.memory.step p asked.1 asked.2
  ⟨⟨asked.2, result.1⟩ :: h.taken, result.2⟩

def of (p : Pages) (steps : List (Kernel × Memory.Step)) : History :=
  steps.foldl (next p) {}

end History

namespace Taken

def acquired? : Taken → Option Int
  | ⟨.acquire size, none⟩ => some size
  | _ => none

def byte? (i : Nat) : Taken → Option UInt8
  | ⟨.write data, _⟩ => data[i]?
  | _ => none

end Taken

/-- The steps after the last successful acquisition; all of them if there is none. -/
def sinceAcquired (taken : List Taken) : List Taken :=
  taken.takeWhile fun t => t.acquired?.isNone

/-- The size of the last successful acquisition if no release came after it, and 0 otherwise. -/
def heldSize (taken : List Taken) : Int :=
  if (sinceAcquired taken).any fun t => t.step = .release then 0
  else (taken.findSome? Taken.acquired?).getD 0

/-- Byte `i` of the last write since then that has one, and 0 if there is none. -/
def heldByte (taken : List Taken) (i : Nat) : UInt8 :=
  ((sinceAcquired taken).findSome? (Taken.byte? i)).getD 0

/-- Under the strict discipline the region has not been sealed since it was acquired. -/
def MayWrite (p : Pages) (taken : List Taken) : Prop :=
  p.writeXorExecute = true → ⟨.sealing, none⟩ ∉ sinceAcquired taken

instance (p : Pages) (taken : List Taken) : Decidable (MayWrite p taken) :=
  inferInstanceAs (Decidable (_ → _))

section Reading

variable {t : Taken} (taken : List Taken)

theorem sinceAcquired_cons (hkept : t.acquired? = none) :
    sinceAcquired (t :: taken) = t :: sinceAcquired taken := by
  simp [sinceAcquired, hkept]

theorem heldSize_cons (hkept : t.acquired? = none) (hstep : t.step ≠ .release) :
    heldSize (t :: taken) = heldSize taken := by
  simp [heldSize, sinceAcquired_cons taken hkept, hkept, hstep]

theorem heldSize_release (failure : Option Failure) :
    heldSize (⟨.release, failure⟩ :: taken) = 0 := by
  simp [heldSize, sinceAcquired_cons taken (t := ⟨.release, failure⟩) rfl]

theorem heldSize_acquire (size : Int) : heldSize (⟨.acquire size, none⟩ :: taken) = size :=
  rfl

theorem heldByte_cons (hkept : t.acquired? = none) (i : Nat) :
    heldByte (t :: taken) i = (t.byte? i).getD (heldByte taken i) := by
  rw [heldByte, sinceAcquired_cons taken hkept, List.findSome?_cons]
  cases t.byte? i <;> rfl

theorem heldByte_acquire (size : Int) (i : Nat) :
    heldByte (⟨.acquire size, none⟩ :: taken) i = 0 :=
  rfl

theorem mayWrite_cons (p : Pages) (hkept : t.acquired? = none) :
    MayWrite p (t :: taken) ↔
      (p.writeXorExecute = true → t ≠ ⟨.sealing, none⟩) ∧ MayWrite p taken := by
  rw [MayWrite, MayWrite, sinceAcquired_cons taken hkept, ← forall_and]
  simp only [List.mem_cons, not_or, ne_comm (a := t), ne_eq]

theorem mayWrite_acquire (p : Pages) (size : Int) :
    MayWrite p (⟨.acquire size, none⟩ :: taken) :=
  fun _ => List.not_mem_nil

end Reading

/-! ## One step -/

section Step

variable {p : Pages} {kernel : Kernel} (m : Memory)

theorem step_acquire_of_some {size : Int} {refusal : Failure}
    (hmap : kernel (.map size p.initial) = some refusal) :
    m.step p kernel (.acquire size) =
      (some (.allocation (Bytes.ofAscii "mmap") size refusal),
        { m with calls := .map size p.initial :: m.calls }) := by
  simp only [Memory.step, Pages.acquire, hmap]

theorem step_acquire_of_none {size : Int} (hmap : kernel (.map size p.initial) = none) :
    m.step p kernel (.acquire size) =
      (none, ⟨⟨List.replicate size.toNat 0, p.initial⟩, .map size p.initial :: m.calls⟩) := by
  simp only [Memory.step, Pages.acquire, hmap]

theorem refusal_of_step_acquire {size : Int} {f : Failure}
    (hfailed : (m.step p kernel (.acquire size)).1 = some f) :
    ∃ refusal, kernel (.map size p.initial) = some refusal ∧
      f = .allocation (Bytes.ofAscii "mmap") size refusal := by
  cases hmap : kernel (.map size p.initial) with
  | none =>
      rw [step_acquire_of_none m hmap] at hfailed
      cases hfailed
  | some refusal =>
      rw [step_acquire_of_some m hmap] at hfailed
      exact ⟨refusal, rfl, (Option.some.inj hfailed).symm⟩

theorem step_sealing_of_error {f : Failure} (hseal : p.sealing kernel m.region = .error f) :
    m.step p kernel .sealing =
      (some f, { m with calls := (p.sealCall? m.region).toList ++ m.calls }) := by
  simp only [Memory.step, hseal]

theorem step_sealing_of_ok {protection : Protection}
    (hseal : p.sealing kernel m.region = .ok protection) :
    m.step p kernel .sealing =
      (none, ⟨m.region.protect protection, (p.sealCall? m.region).toList ++ m.calls⟩) := by
  simp only [Memory.step, hseal]

theorem step_release_of_empty (hempty : m.region.size = 0) :
    m.step p kernel .release = (none, m) := by
  simp only [Memory.step, Pages.releaseCall?, hempty, if_true]

theorem step_release_of_held (hheld : m.region.size ≠ 0) :
    m.step p kernel .release =
      (kernel (.unmap m.region.size), ⟨.empty, .unmap m.region.size :: m.calls⟩) := by
  simp only [Memory.step, Pages.releaseCall?, if_neg hheld]

theorem size_step_release : (m.step p kernel .release).2.region.size = 0 := by
  by_cases hempty : m.region.size = 0
  · rw [step_release_of_empty m hempty]
    exact hempty
  · rw [step_release_of_held m hempty]
    rfl

end Step

/-- What is mapped has exactly the size that was asked for, which then is not negative. -/
def Exact (kernel : Kernel) : Prop :=
  ∀ size protection, kernel (.map size protection) = none → (size.toNat : Int) = size

theorem exact_standard : Exact Kernel.standard := by
  intro size protection hmap
  have hpositive : ¬ size ≤ 0 := by
    intro hsize
    simp [Kernel.standard, hsize] at hmap
  omega

theorem getElem?_write {region : Region} (data : Bytes) {i : Nat} (hi : i < region.size) :
    (region.write data).bytes[i]? = data[i]?.or region.bytes[i]? := by
  unfold Region.write
  by_cases hdata : i < data.length
  · have htaken : i < (data.take region.size).length := by
      rw [List.length_take]
      omega
    rw [List.getElem?_append_left htaken, List.getElem?_take_of_lt hi,
      List.getElem?_eq_getElem hdata, Option.some_or]
  · have hlength : (data.take region.size).length = data.length := by
      rw [List.length_take]
      omega
    have hnone : data[i]? = none := List.getElem?_eq_none (by omega)
    rw [List.getElem?_append_right (by omega), List.getElem?_drop, hlength,
      Nat.add_sub_of_le (by omega), hnone, Option.none_or]

/-! ## What every step keeps -/

structure Told (p : Pages) (taken : List Taken) (region : Region) : Prop where
  size : (region.size : Int) = heldSize taken
  byte : ∀ i < region.size, region.bytes[i]? = some (heldByte taken i)
  writable : region.size ≠ 0 → (region.protection.writable = true ↔ MayWrite p taken)

section Told

variable {p : Pages} {taken : List Taken} {region : Region}

theorem told_empty (hregion : region.size = 0) (htaken : heldSize taken = 0) :
    Told p taken region where
  size := by
    rw [hregion, htaken]
    rfl
  byte i hi := absurd hi (by omega)
  writable hheld := absurd hregion hheld

theorem told_acquired {size : Int} (hsize : (size.toNat : Int) = size) :
    Told p (⟨.acquire size, none⟩ :: taken) ⟨List.replicate size.toNat 0, p.initial⟩ where
  size := by
    rw [heldSize_acquire, Region.size, List.length_replicate]
    exact hsize
  byte i hi := by
    rw [Region.size, List.length_replicate] at hi
    rw [heldByte_acquire]
    exact List.getElem?_replicate_of_lt hi
  writable _ := iff_of_true (writable_initial p) (mayWrite_acquire taken p size)

theorem Told.write (htold : Told p taken region) (data : Bytes) (failure : Option Failure) :
    Told p (⟨.write data, failure⟩ :: taken) (region.write data) where
  size := by
    rw [heldSize_cons taken rfl (by simp), Region.size_write]
    exact htold.size
  byte i hi := by
    rw [Region.size_write] at hi
    rw [getElem?_write data hi, htold.byte i hi, heldByte_cons taken rfl, Taken.byte?]
    cases data[i]? <;> rfl
  writable hheld := by
    rw [Region.size_write] at hheld
    rw [mayWrite_cons taken p rfl, and_iff_right (fun _ => nofun)]
    exact htold.writable hheld

theorem Told.protect (htold : Told p taken region) {t : Taken} {protection : Protection}
    (hkept : t.acquired? = none) (hstep : t.step ≠ .release) (hbyte : ∀ i, t.byte? i = none)
    (hprotection : protection.writable = true ↔
      (p.writeXorExecute = true → t ≠ ⟨.sealing, none⟩) ∧ region.protection.writable = true) :
    Told p (t :: taken) (region.protect protection) where
  size := by
    rw [heldSize_cons taken hkept hstep]
    exact htold.size
  byte i hi := by
    rw [heldByte_cons taken hkept, hbyte i]
    exact htold.byte i hi
  writable hheld := by
    rw [mayWrite_cons taken p hkept, ← htold.writable hheld]
    exact hprotection

theorem Told.idle (htold : Told p taken region) {t : Taken} (hkept : t.acquired? = none)
    (hstep : t.step ≠ .release) (hbyte : ∀ i, t.byte? i = none) (hseal : t ≠ ⟨.sealing, none⟩) :
    Told p (t :: taken) region :=
  htold.protect hkept hstep hbyte (and_iff_right fun _ => hseal).symm

theorem Told.sealed (htold : Told p taken region) {kernel : Kernel} {protection : Protection}
    (hseal : p.sealing kernel region = .ok protection) :
    Told p (⟨.sealing, none⟩ :: taken) (region.protect protection) := by
  refine htold.protect rfl nofun (fun _ => rfl) ?_
  cases hstrict : p.writeXorExecute with
  | false =>
      rw [sealing_of_lax hstrict] at hseal
      rw [← Except.ok.inj hseal]
      exact (and_iff_right nofun).symm
  | true =>
      rw [sealing_of_strict hstrict hseal]
      exact iff_of_false nofun (fun hopen => hopen.1 rfl rfl)

theorem told_step {m : Memory} {kernel : Kernel} (htold : Told p taken m.region)
    (hexact : Exact kernel) (s : Memory.Step) :
    Told p (⟨s, (m.step p kernel s).1⟩ :: taken) (m.step p kernel s).2.region := by
  cases s with
  | acquire size =>
      cases hmap : kernel (.map size p.initial) with
      | none =>
          rw [step_acquire_of_none m hmap]
          exact told_acquired (hexact size p.initial hmap)
      | some refusal =>
          rw [step_acquire_of_some m hmap]
          exact htold.idle rfl nofun (fun _ => rfl) nofun
  | write data => exact htold.write data none
  | sealing =>
      cases hseal : p.sealing kernel m.region with
      | error f =>
          rw [step_sealing_of_error m hseal]
          exact htold.idle rfl nofun (fun _ => rfl) nofun
      | ok protection =>
          rw [step_sealing_of_ok m hseal]
          exact htold.sealed hseal
  | release => exact told_empty (size_step_release m) (heldSize_release taken _)

theorem told_foldl {h : History} (htold : Told p h.taken h.memory.region)
    {steps : List (Kernel × Memory.Step)} (hexact : ∀ asked ∈ steps, Exact asked.1) :
    Told p (steps.foldl (History.next p) h).taken
      (steps.foldl (History.next p) h).memory.region := by
  induction steps generalizing h with
  | nil => exact htold
  | cons asked steps ih =>
      obtain ⟨hfirst, hrest⟩ := List.forall_mem_cons.1 hexact
      have hnext : Told p (h.next p asked).taken (h.next p asked).memory.region :=
        told_step htold hfirst asked.2
      exact ih hnext hrest

end Told

/-- After any sequence of steps, under kernels that may refuse any call, the region is as its history
tells: its size, its bytes, and whether it may be written, which it may until it is sealed under the
strict discipline.  Whatever comes next, an acquisition that fails leaves the region as it is.  A
release unmaps what there is, and on an empty region, so on one that was released before, it does
nothing at all. -/
theorem region_told_by_history (p : Pages) (steps : List (Kernel × Memory.Step))
    (hexact : ∀ asked ∈ steps, Exact asked.1) :
    let taken := (History.of p steps).taken
    let memory := (History.of p steps).memory
    (memory.region.size : Int) = heldSize taken ∧
    (memory.region.hasEntry = true ↔ memory.region.size ≠ 0) ∧
    (∀ i < memory.region.size, memory.region.bytes[i]? = some (heldByte taken i)) ∧
    (memory.region.size ≠ 0 → (memory.region.protection.writable = true ↔ MayWrite p taken)) ∧
    (∀ kernel size f, (memory.step p kernel (.acquire size)).1 = some f →
      (∃ refusal, kernel (.map size p.initial) = some refusal ∧
        f = .allocation (Bytes.ofAscii "mmap") size refusal) ∧
      (memory.step p kernel (.acquire size)).2.region = memory.region) ∧
    (∀ kernel, memory.region.size ≠ 0 →
      (memory.step p kernel .release).2.calls = .unmap memory.region.size :: memory.calls) ∧
    (∀ kernel, memory.region.size = 0 → memory.step p kernel .release = (none, memory)) ∧
    ∀ kernel again,
      let released := (memory.step p kernel .release).2
      released.step p again .release = (none, released) := by
  intro taken memory
  have htold : Told p taken memory.region := told_foldl (told_empty rfl rfl) hexact
  refine ⟨htold.size, by simp [Region.hasEntry], htold.byte, htold.writable, ?_, ?_, ?_, ?_⟩
  · intro kernel size f hfailed
    obtain ⟨refusal, hmap, hf⟩ := refusal_of_step_acquire memory hfailed
    refine ⟨⟨refusal, hmap, hf⟩, ?_⟩
    rw [step_acquire_of_some memory hmap]
  · intro kernel hheld
    rw [step_release_of_held memory hheld]
  · intro kernel hempty
    exact step_release_of_empty memory hempty
  · intro kernel again
    exact step_release_of_empty _ (size_step_release memory)

/-- A write before there is a region is lost, a short write over a longer one leaves the rest of it,
and an acquisition that is refused leaves the region at hand, which can then be sealed.  The kernel
refuses to take the region back, and it is gone all the same. -/
theorem region_told_by_history_overlapping_writes :
    let steps : List (Kernel × Memory.Step) :=
      [.write [9, 9, 9, 9], .acquire 4, .write [1, 2, 3], .write [7], .acquire (-1), .sealing].map
        (Kernel.standard, ·)
    let memory := (History.of ⟨true⟩ steps).memory
    let released := (memory.step ⟨true⟩ onlyMaps .release).2
    (∀ asked ∈ steps, Exact asked.1) ∧
    (memory.region.size : Int) = 4 ∧
    (∀ i < 4, memory.region.bytes[i]? = [7, 2, 3, 0][i]?) ∧
    memory.region.protection.writable ≠ true ∧
    (memory.step ⟨true⟩ onlyMaps .release).1 = some .unknown ∧
    released.calls = .unmap 4 :: memory.calls ∧
    released.step ⟨true⟩ onlyMaps .release = (none, released) := by
  intro steps memory released
  have hexact : ∀ asked ∈ steps, Exact asked.1 := by
    intro asked hasked
    obtain ⟨step, _, rfl⟩ := List.mem_map.1 hasked
    exact exact_standard
  have hheld : memory.region.size = 4 := by decide
  obtain ⟨hsize, _, hbyte, hwritable, _, hunmap, _, hagain⟩ :=
    region_told_by_history ⟨true⟩ steps hexact
  refine ⟨hexact, hsize, ?_, ?_, rfl, ?_, hagain onlyMaps onlyMaps⟩
  · intro i hi
    have htold : ∀ i < 4, some (heldByte (History.of ⟨true⟩ steps).taken i) = [7, 2, 3, 0][i]? := by
      decide
    rw [← htold i hi]
    exact hbyte i (Nat.lt_of_lt_of_eq hi hheld.symm)
  · intro hopen
    exact absurd ((hwritable (by decide)).1 hopen) (by decide)
  · exact hunmap onlyMaps (by decide)

end Accumulator.Proofs.RegionHistories
