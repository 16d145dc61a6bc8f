import Accumulator.Engine
import Accumulator.Executor.Script
import Accumulator.Proofs.Compilation
import Accumulator.Proofs.Execution
/-!
# Native and emulated runs agree

A region may be longer than the code that is written into it, and what stands behind the code is
then part of what is run.  The two ways of running a source agree all the same, since a compiled
program returns before it gets there.
-/

namespace Accumulator.Proofs.Agreement

open Compilation Execution Executor Machine Meaning

/-- A service that does what it is asked: it lends a region that is long enough, seals it, and runs
all of its bytes as the emulated machine would. -/
structure Obliging (service : Service) (size : Nat) : Prop where
  acquires : ∃ region, service.acquire size = .ok region ∧ size ≤ region.size
  seals : ∀ region : Region, size ≤ region.size → ∃ protection,
    service.sealing region = .ok protection
  invokes : ∀ (region : Region) (value : Int64), emulate region.bytes = .ok value →
    service.invoke region = .returned value

theorem execute_of_obliging {e : Executor} {code : Bytes} {value : Int64}
    (hpasses : Passes e.host code) (hservice : Obliging (nextService e) code.length)
    (hemulate : ∀ suffix, emulate (code ++ suffix) = .ok value) :
    (e.execute code).1.verdict = .value value := by
  obtain ⟨⟨region, hacquire, hsize⟩, hseals, hinvokes⟩ := hservice
  have hinvoke : ∀ (region : Region) (protection : Protection), code.length ≤ region.size →
      (nextService e).invoke ((region.write code).protect protection) = .returned value := by
    intro region protection hsize
    apply hinvokes
    rw [Region.protect, bytes_write hsize]
    exact hemulate _
  have hout := outcome_execute e code
  generalize e.execute code = out at hout ⊢
  cases hout with
  | rejected f hrejected => exact absurd hpasses hrejected
  | refused f _ hrefused =>
      rw [hacquire] at hrefused
      cases hrefused
  | short region' _ hgranted hshort =>
      rw [hacquire] at hgranted
      cases hgranted
      omega
  | unsealed region' f _ _ hsize' hseal =>
      obtain ⟨protection, hprotection⟩ :=
        hseals (region'.write code) (by rw [Region.size_write]; exact hsize')
      rw [hprotection] at hseal
      cases hseal
  | returned region' protection value' _ _ hsize' _ hreturned =>
      rw [hinvoke region' protection hsize'] at hreturned
      cases hreturned
      rfl
  | aborted region' protection message _ _ hsize' _ haborted =>
      rw [hinvoke region' protection hsize'] at haborted
      cases haborted

theorem getLast?_compile (source : Bytes) :
    (Program.compile source).code.getLast? = some returnByte := by
  have hret : Op.ret.encoding = [returnByte] := rfl
  rw [Program.compile, Program.encode, hret]
  exact List.getLast?_concat

theorem run_emulate (code : Bytes) :
    ∃ call : Call, call.events = [] ∧
      ∀ executor : Executor, Engine.run ⟨.emulate, executor⟩ code = (call, ⟨.emulate, executor⟩) := by
  cases hemulate : emulate code with
  | ok value =>
      refine ⟨{ verdict := .value value }, rfl, ?_⟩
      intro executor
      simp only [Engine.run, hemulate]
  | error fault =>
      refine ⟨{ verdict := .failed (.emulation fault) }, rfl, ?_⟩
      intro executor
      simp only [Engine.run, hemulate]

theorem compileAndRun_emulate (source : Bytes) (executor : Executor) :
    (Engine.compileAndRun ⟨.emulate, executor⟩ source).1.verdict = .value (meaning source) := by
  have hemulate := emulate_compile_append source []
  rw [List.append_nil] at hemulate
  simp only [Engine.compileAndRun, Engine.run, hemulate]

theorem compileAndRun_native {source : Bytes} {executor : Executor}
    (hnative : executor.host.native = true)
    (hservice : Obliging (nextService executor) (Program.compile source).code.length) :
    (Engine.compileAndRun ⟨.native, executor⟩ source).1.verdict = .value (meaning source) := by
  have hpasses : Passes executor.host (Program.compile source).code :=
    ⟨getLast?_compile source, hnative⟩
  exact execute_of_obliging hpasses hservice (emulate_compile_append source)

/-- A source has one value, with every mode but emulation on a host that does what it is asked, and
with emulation on any executor at all.  Emulation makes no request to the host and counts nothing,
whatever code it runs. -/
theorem native_agrees_with_emulated (name source : Bytes) (executor other : Executor)
    (hname : name ≠ Mode.emulate.name) (hnative : executor.host.native = true)
    (hservice : Obliging (nextService executor) (Program.compile source).code.length) :
    (∃ value : Int64,
      (Engine.compileAndRun ⟨Mode.ofName name, executor⟩ source).1.verdict = .value value ∧
      (Engine.compileAndRun ⟨.emulate, other⟩ source).1.verdict = .value value) ∧
    ∀ code : Bytes, ∃ call : Call, call.events = [] ∧
      ∀ any : Executor, Engine.run ⟨.emulate, any⟩ code = (call, ⟨.emulate, any⟩) := by
  have hmode : Mode.ofName name = .native := if_neg hname
  refine ⟨⟨meaning source, ?_, compileAndRun_emulate source other⟩, run_emulate⟩
  rw [hmode]
  exact compileAndRun_native hnative hservice

/-- A region with three bytes to spare, none of which is the start of an instruction. -/
theorem native_agrees_with_emulated_padded :
    ∃ value : Int64,
      (Engine.compileAndRun
        ⟨Mode.ofName (Bytes.ofAscii "native"),
          { host := .scripted [{ short := -3 }] true Invocation.emulate }⟩
        (Bytes.ofAscii "-*-/")).1.verdict = .value value ∧
      (Engine.compileAndRun ⟨.emulate, { host := .standard false }⟩
        (Bytes.ofAscii "-*-/")).1.verdict = .value value :=
  (native_agrees_with_emulated _ _ _ _ (by decide) rfl
    { acquires := ⟨_, rfl, by decide⟩
      seals := fun region _ => ⟨region.protection, rfl⟩
      invokes := fun region value hvalue => by
        show Invocation.emulate region = .returned value
        rw [Invocation.emulate, hvalue] }).1

end Accumulator.Proofs.Agreement
