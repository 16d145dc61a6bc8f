import Accumulator.Proofs.Entry
import Accumulator.Proofs.Lossless
/-!
# What lies behind the `ret` of a run

The machine disassembles the whole code before it runs any of it, so bytes behind the `ret` could in
principle change how those in front of it are cut.  They do not: a run that returns has gone through
recognised instructions only, and assembled instructions are read back whatever follows them.
-/

namespace Accumulator.Proofs.Returning

open Disassembly Entry Lossless Machine

/-! ## Runs and the first `ret` -/

theorem op_ne_ret_of_next {r r' : Registers} {d : Decoded} (hstep : r.step d = .next r') :
    d.op ≠ some .ret := by
  intro hop
  simp only [Registers.step, hop] at hstep
  cases hstep

theorem next_of_run_ok {r : Registers} {d : Decoded} {code : List Decoded} {value : Int64}
    (hrun : r.run (d :: code) = .ok value) (hop : d.op ≠ some .ret) :
    ∃ r' : Registers, r.step d = .next r' ∧ r'.run code = .ok value := by
  rw [Registers.run] at hrun
  cases hstep : r.step d with
  | next r' =>
      rw [hstep] at hrun
      exact ⟨r', rfl, hrun⟩
  | done v => exact absurd (step_eq_done hstep).1 hop
  | stop fault =>
      rw [hstep] at hrun
      cases hrun

theorem run_append_of_ret {r : Registers} {code : List Decoded}
    (hret : some Op.ret ∈ code.map (·.op)) (more : List Decoded) :
    r.run (code ++ more) = r.run code := by
  induction code generalizing r with
  | nil => simp at hret
  | cons d code ih =>
      rw [List.cons_append, Registers.run, Registers.run]
      cases hstep : r.step d with
      | next r' =>
          rw [List.map_cons, List.mem_cons] at hret
          have hret' := hret.resolve_left fun heq => op_ne_ret_of_next hstep heq.symm
          exact ih hret'
      | done value => rfl
      | stop fault => rfl

theorem exists_ret_of_run_ok {r : Registers} {offset : Nat} {code : Bytes} {value : Int64}
    (hrun : r.run (disassembleAt offset code) = .ok value) :
    ∃ (ops : List Op) (rest : Bytes), .ret ∉ ops ∧ code = assemble (ops ++ [.ret]) ++ rest := by
  induction code using code_induction generalizing r offset with
  | nil => cases hrun
  | recognised op rest ih =>
      rw [disassembleAt_encoding_append] at hrun
      by_cases hop : op = .ret
      · subst hop
        exact ⟨[], rest, by simp, rfl⟩
      · have hplaced : (placed offset op).op ≠ some .ret := fun heq => hop (Option.some.inj heq)
        obtain ⟨r', _, hrun'⟩ := next_of_run_ok hrun hplaced
        obtain ⟨ops, rest', hops, hrest⟩ := ih hrun'
        refine ⟨op :: ops, rest', ?_, ?_⟩
        · rw [List.mem_cons, not_or]
          exact ⟨Ne.symm hop, hops⟩
        · rw [hrest]
          simp [assemble]
  | stray b rest hno ih =>
      rw [disassembleAt_stray offset hno] at hrun
      cases hrun

/-! ## Codes that end in their only `ret` -/

/-- Recognised instructions, of which the last and no other is `ret`. -/
def EndsInOnlyRet (code : Bytes) : Prop :=
  ∃ ops : List Op, .ret ∉ ops ∧ code = assemble (ops ++ [.ret])

theorem emulate_append_of_endsInOnlyRet {code : Bytes} (hcode : EndsInOnlyRet code)
    (suffix : Bytes) : emulate (code ++ suffix) = emulate code := by
  obtain ⟨ops, _, rfl⟩ := hcode
  have hret : some Op.ret ∈ (layout 0 (ops ++ [.ret])).map (·.op) := by
    rw [map_op_layout]
    simp
  rw [emulate, emulate, disassemble_assemble, disassemble_eq_disassembleAt,
    disassembleAt_assemble_append, run_append_of_ret hret]

theorem takeWhile_ops_disassemble {ops : List Op} (hops : .ret ∉ ops) (rest : Bytes) :
    ((disassemble (assemble (ops ++ [.ret]) ++ rest)).map (·.op)).takeWhile (· ≠ some .ret) =
      ops.map some := by
  have hbefore : ∀ op ∈ ops.map some, decide (op ≠ some Op.ret) = true := by
    intro op hop
    obtain ⟨op', hop', rfl⟩ := List.mem_map.1 hop
    have hne : op' ≠ .ret := fun heq => hops (heq ▸ hop')
    simpa using hne
  rw [disassemble_eq_disassembleAt, disassembleAt_assemble_append, List.map_append, map_op_layout,
    List.map_append, List.append_assoc, List.takeWhile_append_of_pos hbefore]
  simp

theorem eq_of_endsInOnlyRet {code first second : Bytes} (hfirst : EndsInOnlyRet first)
    (hsecond : EndsInOnlyRet second) (hfirstCode : first <+: code)
    (hsecondCode : second <+: code) : first = second := by
  obtain ⟨ops, hops, rfl⟩ := hfirst
  obtain ⟨ops', hops', rfl⟩ := hsecond
  obtain ⟨rest, hrest⟩ := hfirstCode
  obtain ⟨rest', hrest'⟩ := hsecondCode
  have hmap : ops.map some = ops'.map some := by
    rw [← takeWhile_ops_disassemble hops rest, hrest, ← hrest',
      takeWhile_ops_disassemble hops' rest']
  rw [List.map_inj_right (fun _ _ => Option.some.inj) |>.1 hmap]

/-- A run that returns is settled by the code up to its first `ret`: any bytes may be added behind the
code, and the part that decides the run is a front of the code and the only one of its kind. -/
theorem emulate_settled_at_ret {code : Bytes} {value : Int64} (hrun : emulate code = .ok value) :
    (∀ suffix : Bytes, emulate (code ++ suffix) = .ok value) ∧
    ∃! front : Bytes, front <+: code ∧ EndsInOnlyRet front ∧ emulate front = .ok value := by
  obtain ⟨ops, rest, hops, hcode⟩ := exists_ret_of_run_ok hrun
  have hfront : EndsInOnlyRet (assemble (ops ++ [.ret])) := ⟨ops, hops, rfl⟩
  have hvalue : emulate (assemble (ops ++ [.ret])) = .ok value := by
    rw [← emulate_append_of_endsInOnlyRet hfront rest, ← hcode, hrun]
  constructor
  · intro suffix
    rw [hcode, List.append_assoc, emulate_append_of_endsInOnlyRet hfront, hvalue]
  · have hstart : assemble (ops ++ [.ret]) <+: code := ⟨rest, hcode.symm⟩
    refine ⟨assemble (ops ++ [.ret]), ⟨hstart, hfront, hvalue⟩, ?_⟩
    rintro other ⟨hother, hends, _⟩
    exact eq_of_endsInOnlyRet hends hfront hother hstart

/-- Behind the first `ret` stand the front of a `mov` and another `ret`. -/
theorem emulate_settled_at_ret_garbage :
    let code : Bytes := [0x48, 0x83, 0xC0, 0x01, 0xC3, 0x48, 0xC7, 0xC3]
    emulate code = .ok 1 ∧ (∀ suffix : Bytes, emulate (code ++ suffix) = .ok 1) ∧
    ∃! front : Bytes, front <+: code ∧ EndsInOnlyRet front ∧ emulate front = .ok 1 := by
  intro code
  have hrun : emulate code = .ok 1 := by decide
  exact ⟨hrun, emulate_settled_at_ret hrun⟩

end Accumulator.Proofs.Returning
