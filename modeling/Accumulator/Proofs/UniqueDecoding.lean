import Accumulator.Machine.Instr
/-!
# Assembled code has one reading

An instruction can be read back from the front of any code that starts with its encoding: `decode`
finds the form from the opcode, the registers from the REX and ModR/M bytes, and the immediate from
the bytes behind them.  Hence the encodings are a prefix code, and a code determines the sequence of
instructions that it was assembled from.
-/

namespace Accumulator.Proofs.UniqueDecoding

open Machine

/-! ## Prefix codes -/

/-- Words that can be told apart from the front, whatever follows them, can be told apart in a
sequence. -/
theorem eq_of_flatMap_eq {α β : Type} {word : α → List β} {letters : α → Prop}
    (hne : ∀ a, letters a → word a ≠ [])
    (hfront : ∀ a b s t, letters a → letters b → word a ++ s = word b ++ t → a = b ∧ s = t)
    {xs ys : List α} (hxs : ∀ x ∈ xs, letters x) (hys : ∀ y ∈ ys, letters y)
    (heq : xs.flatMap word = ys.flatMap word) : xs = ys := by
  induction xs generalizing ys with
  | nil =>
      cases ys with
      | nil => rfl
      | cons y ys =>
          rw [List.flatMap_nil, List.flatMap_cons] at heq
          have hnil := (List.append_eq_nil_iff.1 heq.symm).1
          exact absurd hnil (hne y (hys y (by simp)))
  | cons x xs ih =>
      cases ys with
      | nil =>
          rw [List.flatMap_nil, List.flatMap_cons] at heq
          have hnil := (List.append_eq_nil_iff.1 heq).1
          exact absurd hnil (hne x (hxs x (by simp)))
      | cons y ys =>
          rw [List.flatMap_cons, List.flatMap_cons] at heq
          obtain ⟨rfl, hrest⟩ :=
            hfront x y _ _ (hxs x (by simp)) (hys y (by simp)) heq
          rw [ih (fun a ha => hxs a (by simp [ha])) (fun a ha => hys a (by simp [ha])) hrest]

/-! ## Registers in the REX and ModR/M bytes -/

def rmOf (rex modrm : UInt8) : Register :=
  ⟨(modrm.toNat % 8 + 8 * (rex.toNat % 2) : Nat)⟩

def regOf (rex modrm : UInt8) : Register :=
  ⟨(modrm.toNat / 8 % 8 + 8 * (rex.toNat / 4 % 2) : Nat)⟩

def extensionOf (modrm : UInt8) : Nat :=
  modrm.toNat / 8 % 8

theorem toNat_rex (reg rm : Bool) : (rex reg rm).toNat = 0x48 + 4 * reg.toNat + rm.toNat := by
  cases reg <;> cases rm <;> rfl

theorem toNat_modRM {reg rm : UInt8} (hreg : reg.toNat < 8) (hrm : rm.toNat < 8) :
    (modRM reg rm).toNat = 0xC0 + 8 * reg.toNat + rm.toNat := by
  have h192 : (0xC0 : UInt8).toNat = 192 := rfl
  have h8 : (8 : UInt8).toNat = 8 := rfl
  simp only [modRM, UInt8.toNat_add, UInt8.toNat_mul, h192, h8]
  omega

theorem toNat_lowBits (r : Register) : (r.lowBits.toNat : Int) = r.code % 8 := by
  have hlow : r.lowBits.toNat = (r.code % 8).toNat := 
    UInt8.toNat_ofNat_of_lt' (show (r.code % 8).toNat < 256 by omega)
  omega

theorem lowBits_lt (r : Register) : r.lowBits.toNat < 8 := by
  have hlow := toNat_lowBits r
  omega

theorem code_eq_of_valid {r : Register} (hr : r.Valid) :
    r.code = (r.lowBits.toNat + 8 * r.isExtended.toNat : Nat) := by
  have hlow := toNat_lowBits r
  obtain ⟨hmin, hmax⟩ := hr
  by_cases hext : 8 ≤ r.code
  · have hbit : r.isExtended = true := by simp [Register.isExtended, hext, hmax]
    rw [hbit, Bool.toNat_true]
    omega
  · have hbit : r.isExtended = false := by simp [Register.isExtended, hext]
    rw [hbit, Bool.toNat_false]
    omega

theorem rmOf_encoded {r : Register} (hr : r.Valid) {reg : UInt8} (hreg : reg.toNat < 8)
    (bit : Bool) : rmOf (rex bit r.isExtended) (modRM reg r.lowBits) = r := by
  have hcode := code_eq_of_valid hr
  have hlow := lowBits_lt r
  have hbit : r.isExtended.toNat ≤ 1 := Bool.toNat_le _
  have hrm : (192 + 8 * reg.toNat + r.lowBits.toNat) % 8 = r.lowBits.toNat := by omega
  have hext : (72 + 4 * bit.toNat + r.isExtended.toNat) % 2 = r.isExtended.toNat := by omega
  rw [rmOf, toNat_rex, toNat_modRM hreg hlow, hrm, hext]
  exact congrArg Register.mk hcode.symm

theorem regOf_encoded {r : Register} (hr : r.Valid) {rm : UInt8} (hrm : rm.toNat < 8)
    (bit : Bool) : regOf (rex r.isExtended bit) (modRM r.lowBits rm) = r := by
  have hcode := code_eq_of_valid hr
  have hlow := lowBits_lt r
  have hbit : r.isExtended.toNat ≤ 1 := Bool.toNat_le _
  have hbit' : bit.toNat ≤ 1 := Bool.toNat_le _
  have hreg : (192 + 8 * r.lowBits.toNat + rm.toNat) / 8 % 8 = r.lowBits.toNat := by omega
  have hext : (72 + 4 * r.isExtended.toNat + bit.toNat) / 4 % 2 = r.isExtended.toNat := by omega
  rw [regOf, toNat_rex, toNat_modRM hlow hrm, hreg, hext]
  exact congrArg Register.mk hcode.symm

theorem extensionOf_encoded (r : Register) {extension : UInt8} (hext : extension.toNat < 8) :
    extensionOf (modRM extension r.lowBits) = extension.toNat := by
  have hlow := lowBits_lt r
  rw [extensionOf, toNat_modRM hext hlow]
  omega

/-! ## Immediates -/

def readWord : Bytes → Option (Int32 × Bytes)
  | b₀ :: b₁ :: b₂ :: b₃ :: rest =>
      let value := b₀.toNat + 256 * (b₁.toNat + 256 * (b₂.toNat + 256 * b₃.toNat))
      some ((UInt32.ofNat value).toInt32, rest)
  | _ => none

def readByte : Bytes → Option (Int32 × Bytes)
  | b :: rest => some (b.toInt8.toInt32, rest)
  | [] => none

theorem readWord_littleEndian (imm : Int32) (rest : Bytes) :
    readWord (littleEndian imm.toUInt32 ++ rest) = some (imm, rest) := by
  generalize hw : imm.toUInt32 = w
  have hlt : w.toNat < 4294967296 := w.toNat_lt
  have hshift : ∀ k : UInt32, (w >>> k).toNat = w.toNat / 2 ^ (k.toNat % 32) := by
    intro k
    rw [UInt32.toNat_shiftRight, Nat.shiftRight_eq_div_pow]
  have h₁ : (w >>> 8).toNat = w.toNat / 256 := hshift 8
  have h₂ : (w >>> 16).toNat = w.toNat / 65536 := hshift 16
  have h₃ : (w >>> 24).toNat = w.toNat / 16777216 := hshift 24
  have hsum : w.toNat % 2 ^ 8 + 256 * (w.toNat / 256 % 2 ^ 8 + 256 * (w.toNat / 65536 % 2 ^ 8 +
      256 * (w.toNat / 16777216 % 2 ^ 8))) = w.toNat := by
    omega
  simp only [littleEndian, List.cons_append, List.nil_append, readWord, UInt32.toNat_toUInt8, h₁,
    h₂, h₃]
  rw [hsum, UInt32.ofNat_toNat, ← hw, Int32.toInt32_toUInt32]

theorem readByte_of_fitsByte {imm : Int32} (hfits : fitsByte imm = true) (rest : Bytes) :
    readByte (imm.toUInt32.toUInt8 :: rest) = some (imm, rest) := by
  have hbyte : imm.toUInt32.toUInt8.toInt8 = imm.toInt8 := by
    apply Int8.toBitVec.inj
    rw [UInt8.toBitVec_toInt8, UInt32.toBitVec_toUInt8, Int32.toBitVec_toUInt32,
      Int32.toBitVec_toInt8, BitVec.signExtend_eq_setWidth_of_le _ (by decide)]
  simp only [fitsByte, Bool.and_eq_true, decide_eq_true_eq] at hfits
  obtain ⟨hmin, hmax⟩ := hfits
  have hvalue : imm.toInt8.toInt32 = imm := by
    apply Int32.toInt_inj.1
    rw [Int8.toInt_toInt32, Int32.toInt_toInt8]
    exact Int.bmod_eq_of_le (by omega) (by omega)
  rw [readByte, hbyte, hvalue]

/-! ## Reading one instruction -/

def arith (extension : Nat) (dst : Register) (imm : Int32) : Instr :=
  if extension = 0 then .add dst imm else .sub dst imm

/-- An instruction from its REX byte, its opcode and the bytes behind the opcode. -/
def decodeForm (rex : UInt8) : UInt8 → Bytes → Option (Instr × Bytes)
  | 0x99, rest => some (.cqo, rest)
  | 0xC7, modrm :: rest => (readWord rest).map (Prod.map (.mov (rmOf rex modrm)) id)
  | 0x83, modrm :: rest =>
      (readByte rest).map (Prod.map (arith (extensionOf modrm) (rmOf rex modrm)) id)
  | 0x81, modrm :: rest =>
      (readWord rest).map (Prod.map (arith (extensionOf modrm) (rmOf rex modrm)) id)
  | 0x31, modrm :: rest => some (.xor (rmOf rex modrm) (regOf rex modrm), rest)
  | 0xD1, modrm :: rest => some (.shl (rmOf rex modrm) 1, rest)
  | 0xC1, modrm :: imm :: rest => some (.shl (rmOf rex modrm) imm, rest)
  | 0xF7, modrm :: rest => some (.idiv (rmOf rex modrm), rest)
  | _, _ => none

def decode (code : Bytes) : Option (Instr × Bytes) :=
  match code with
  | [] => none
  | first :: rest =>
      if first = 0xC3 then some (.ret, rest)
      else
        match rest with
        | [] => none
        | opcode :: rest => decodeForm first opcode rest

def registers : Instr → List Register
  | .mov dst _ | .add dst _ | .sub dst _ | .shl dst _ => [dst]
  | .xor dst src => [dst, src]
  | .idiv divisor => [divisor]
  | .cqo | .ret => []

def Valid (i : Instr) : Prop :=
  ∀ r ∈ registers i, r.Valid

instance (i : Instr) : Decidable (Valid i) :=
  inferInstanceAs (Decidable (∀ r ∈ registers i, r.Valid))

theorem decode_rex (reg rm : Bool) (opcode : UInt8) (rest : Bytes) :
    decode (rex reg rm :: opcode :: rest) = decodeForm (rex reg rm) opcode rest := by
  have hret : rex reg rm ≠ 0xC3 := by
    cases reg <;> cases rm <;> decide
  exact if_neg hret

theorem decode_encodeArith {dst : Register} (hdst : dst.Valid) {extension : UInt8}
    (hext : extension.toNat < 8) (imm : Int32) (rest : Bytes) :
    decode (encodeArith extension dst imm ++ rest) =
      some (arith extension.toNat dst imm, rest) := by
  have hdst' := rmOf_encoded hdst hext false
  have hext' := extensionOf_encoded dst hext
  unfold encodeArith
  by_cases hfits : fitsByte imm = true
  · rw [if_pos hfits]
    calc decode ([rex false dst.isExtended, 0x83, modRM extension dst.lowBits,
          imm.toUInt32.toUInt8] ++ rest)
        = (readByte (imm.toUInt32.toUInt8 :: rest)).map _ := decode_rex ..
      _ = some (arith extension.toNat dst imm, rest) := by
          rw [readByte_of_fitsByte hfits, hdst', hext']
          rfl
  · rw [if_neg hfits]
    calc decode ([rex false dst.isExtended, 0x81, modRM extension dst.lowBits] ++
          littleEndian imm.toUInt32 ++ rest)
        = (readWord (littleEndian imm.toUInt32 ++ rest)).map _ := decode_rex ..
      _ = some (arith extension.toNat dst imm, rest) := by
          rw [readWord_littleEndian, hdst', hext']
          rfl

theorem decode_encode_append {i : Instr} (hi : Valid i) (rest : Bytes) :
    decode (i.encode ++ rest) = some (i, rest) := by
  cases i with
  | mov dst imm =>
      have hdst : dst.Valid := hi dst (by simp [registers])
      calc decode ((Instr.mov dst imm).encode ++ rest)
          = (readWord (littleEndian imm.toUInt32 ++ rest)).map _ := decode_rex ..
        _ = some (.mov dst imm, rest) := by
            rw [readWord_littleEndian, rmOf_encoded hdst (by decide)]
            rfl
  | add dst imm => exact decode_encodeArith (hi dst (by simp [registers])) (by decide) imm rest
  | sub dst imm => exact decode_encodeArith (hi dst (by simp [registers])) (by decide) imm rest
  | xor dst src =>
      have hdst : dst.Valid := hi dst (by simp [registers])
      have hsrc : src.Valid := hi src (by simp [registers])
      calc decode ((Instr.xor dst src).encode ++ rest)
          = some (.xor (rmOf _ _) (regOf _ _), rest) := decode_rex ..
        _ = some (.xor dst src, rest) := by
            rw [rmOf_encoded hdst (lowBits_lt src), regOf_encoded hsrc (lowBits_lt dst)]
  | shl dst imm =>
      have hdst : dst.Valid := hi dst (by simp [registers])
      have hdst' : rmOf (rex false dst.isExtended) (modRM 4 dst.lowBits) = dst :=
        rmOf_encoded hdst (by decide) false
      rw [Instr.encode]
      by_cases himm : imm = 1
      · rw [if_pos himm, himm]
        calc decode ([rex false dst.isExtended, 0xD1, modRM 4 dst.lowBits] ++ rest)
            = some (.shl (rmOf _ _) 1, rest) := decode_rex ..
          _ = some (.shl dst 1, rest) := by rw [hdst']
      · rw [if_neg himm]
        calc decode ([rex false dst.isExtended, 0xC1, modRM 4 dst.lowBits, imm] ++ rest)
            = some (.shl (rmOf _ _) imm, rest) := decode_rex ..
          _ = some (.shl dst imm, rest) := by rw [hdst']
  | idiv divisor =>
      have hdivisor : divisor.Valid := hi divisor (by simp [registers])
      calc decode ((Instr.idiv divisor).encode ++ rest)
          = some (.idiv (rmOf _ _), rest) := decode_rex ..
        _ = some (.idiv divisor, rest) := by rw [rmOf_encoded hdivisor (by decide)]
  | cqo => rfl
  | ret => rfl

/-! ## Sequences of instructions -/

theorem encode_append_inj {i j : Instr} {s t : Bytes} (hi : Valid i) (hj : Valid j)
    (heq : i.encode ++ s = j.encode ++ t) : i = j ∧ s = t := by
  have hread : some (i, s) = some (j, t) := by
    rw [← decode_encode_append hi, heq, decode_encode_append hj]
  simpa using hread

theorem encode_ne_nil {i : Instr} (hi : Valid i) : i.encode ≠ [] := by
  intro hnil
  have hread := decode_encode_append hi []
  rw [hnil] at hread
  cases hread

theorem code_emitAll (a : Assembler) (is : List Instr) :
    (a.emitAll is).code = a.code ++ is.flatMap Instr.encode := by
  induction is generalizing a with
  | nil => simp [Assembler.emitAll]
  | cons i is ih =>
      have hemit : a.emitAll (i :: is) = (a.emit i).emitAll is := rfl
      rw [hemit, ih, List.flatMap_cons, Assembler.emit, List.append_assoc]

/-- The code that an assembler has emitted determines the instructions behind it: their operations,
registers and immediates.  Each of them adds to any code the bytes that it gives on its own. -/
theorem emitAll_uniquely_decodable (a : Assembler) (first second : List Instr)
    (hfirst : ∀ i ∈ first, Valid i) (hsecond : ∀ i ∈ second, Valid i) :
    ((a.emitAll first).code = (a.emitAll second).code ↔ first = second) ∧
    ∀ (b : Assembler) (i : Instr), (b.emit i).code = b.code ++ (Assembler.emit {} i).code := by
  refine ⟨⟨?_, ?_⟩, fun b i => rfl⟩
  · intro heq
    rw [code_emitAll, code_emitAll, List.append_cancel_left_eq] at heq
    exact eq_of_flatMap_eq (fun i => encode_ne_nil) (fun i j s t => encode_append_inj) hfirst
      hsecond heq
  · rintro rfl
    rfl

/-- Immediates on both sides of the short form, with an extended register. -/
theorem emitAll_uniquely_decodable_short_forms :
    let first : List Instr := [.add ⟨15⟩ (-128), .shl ⟨7⟩ 1, .xor ⟨8⟩ ⟨0⟩]
    let second : List Instr := [.add ⟨15⟩ (-129), .shl ⟨7⟩ 2, .xor ⟨0⟩ ⟨8⟩]
    (∀ i ∈ first, Valid i) ∧ (∀ i ∈ second, Valid i) ∧
      ((Assembler.emitAll {} first).code = (Assembler.emitAll {} second).code ↔
        first = second) :=
  ⟨by decide, by decide, (emitAll_uniquely_decodable {} _ _ (by decide) (by decide)).1⟩

end Accumulator.Proofs.UniqueDecoding
