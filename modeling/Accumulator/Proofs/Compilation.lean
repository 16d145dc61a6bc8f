import Accumulator.Machine.Emulator
import Accumulator.Program
import Accumulator.Proofs.Disassembly
import Accumulator.Proofs.Meaning
/-!
# Compiled programs compute the meaning of their source

The simulation is stated with the code that comes afterwards left open: the fragment of a token,
followed by anything, runs like what follows from registers whose accumulator the token has acted
on.  Nothing is assumed of the other two registers, since the fragment of a halving sets both before
it reads them.
-/

namespace Accumulator.Proofs.Compilation

open Disassembly Machine Meaning

theorem run_cons_of_next {r r' : Registers} {d : Decoded} (hstep : r.step d = .next r')
    (rest : List Decoded) : r.run (d :: rest) = r'.run rest := by
  rw [Registers.run, hstep]

/-- After `cqo` the pair of registers is one sign-extended word, so that the division goes through. -/
theorem divide_two (r : Registers) (offset : Nat) (hrcx : r.rcx = 2)
    (hrdx : r.rdx = r.signOfRax) :
    r.divide offset = .next { r with rax := r.rax / 2, rdx := r.rax % 2 } := by
  have hrcx' : r.rcx ≠ 0 := by
    rw [hrcx]
    decide
  unfold Registers.divide
  rw [if_neg hrcx', if_neg (by simpa using hrdx), hrcx]

theorem run_halving (r : Registers) (offset₁ offset₂ offset₃ : Nat) (rest : List Decoded) :
    r.run (placed offset₁ .cqo :: placed offset₂ .movRcx2 :: placed offset₃ .idivRcx :: rest) =
      Registers.run ⟨r.rax / 2, 2, r.rax % 2⟩ rest := by
  have hcqo : r.step (placed offset₁ .cqo) = .next { r with rdx := r.signOfRax } := rfl
  have hmov : Registers.step { r with rdx := r.signOfRax } (placed offset₂ .movRcx2) =
      .next { r with rdx := r.signOfRax, rcx := 2 } := rfl
  have hidiv : Registers.step { r with rdx := r.signOfRax, rcx := 2 } (placed offset₃ .idivRcx) =
      .next ⟨r.rax / 2, 2, r.rax % 2⟩ :=
    divide_two { r with rdx := r.signOfRax, rcx := 2 } offset₃ rfl rfl
  rw [run_cons_of_next hcqo, run_cons_of_next hmov, run_cons_of_next hidiv]

theorem run_fragment (k : Kind) (r : Registers) (offset : Nat) (rest : List Decoded) :
    ∃ r' : Registers, r'.rax = act k r.rax ∧
      r.run (layout offset k.fragment ++ rest) = r'.run rest := by
  cases k with
  | ignored => exact ⟨r, rfl, rfl⟩
  | other code => exact ⟨r, rfl, rfl⟩
  | increment => exact ⟨{ r with rax := r.rax + 1 }, rfl, rfl⟩
  | decrement => exact ⟨{ r with rax := r.rax - 1 }, rfl, rfl⟩
  | double => exact ⟨{ r with rax := r.rax <<< 1 }, rfl, rfl⟩
  | halve => exact ⟨⟨r.rax / 2, 2, r.rax % 2⟩, rfl, run_halving r _ _ _ rest⟩

theorem run_fragments (tokens : List Token) (r : Registers) (offset : Nat)
    (rest : List Decoded) :
    ∃ r' : Registers, r'.rax = actAll tokens r.rax ∧
      r.run (layout offset (tokens.flatMap (·.kind.fragment)) ++ rest) = r'.run rest := by
  induction tokens generalizing r offset with
  | nil => exact ⟨r, rfl, rfl⟩
  | cons t tokens ih =>
      rw [List.flatMap_cons, layout_append, List.append_assoc]
      obtain ⟨r₁, hrax₁, hrun₁⟩ := run_fragment t.kind r offset
        (layout (offset + (assemble t.kind.fragment).length)
          (tokens.flatMap (·.kind.fragment)) ++ rest)
      obtain ⟨r₂, hrax₂, hrun₂⟩ := ih r₁ (offset + (assemble t.kind.fragment).length)
      refine ⟨r₂, ?_, hrun₁.trans hrun₂⟩
      rw [hrax₂, hrax₁]
      rfl

/-! ## Whole programs -/

def operations (tokens : List Token) : List Op :=
  .zero :: tokens.flatMap (·.kind.fragment) ++ [.ret]

theorem code_encode (tokens : List Token) :
    (Program.encode tokens).code = assemble (operations tokens) := by
  simp [Program.encode, operations, assemble, Kind.code, List.flatMap_assoc]

theorem run_encode_append (tokens : List Token) (r : Registers) (suffix : Bytes) :
    r.run (disassemble ((Program.encode tokens).code ++ suffix)) =
      .ok (actAll tokens 0) := by
  have hzero : r.step (placed 0 .zero) = .next { r with rax := 0 } := rfl
  rw [disassemble_eq_disassembleAt, code_encode, disassembleAt_assemble_append, operations,
    List.cons_append, layout, List.cons_append, run_cons_of_next hzero, layout_append,
    List.append_assoc]
  obtain ⟨r', hrax, hrun⟩ := run_fragments tokens { r with rax := 0 } _ _
  rw [hrun]
  exact congrArg Except.ok hrax

theorem emulate_compile_append (source suffix : Bytes) :
    emulate ((Program.compile source).code ++ suffix) = .ok (meaning source) := by
  have hrun := run_encode_append (Token.scan source) {} suffix
  rw [actAll_scan] at hrun
  exact hrun

/-- Every source compiles to code that the machine runs without a fault, and the value that it
returns is the meaning of the source. -/
theorem emulate_compile (source : Bytes) :
    emulate (Program.compile source).code = .ok (meaning source) := by
  simpa using emulate_compile_append source []

end Accumulator.Proofs.Compilation
