import Mathlib.Data.List.Basic
import FacetedSearch.Proofs.Success
import FacetedSearch.Text.Percent

/-!
# Octets of texts

Reading UTF-8 inverts writing it, and so does reading percent-encoded octets, whichever of them are escaped.
-/

namespace FacetedSearch.Text

namespace Utf8

/-! ## UTF-8 -/

theorem toNat_octet {n : Nat} (h : n < 256) : (UInt8.ofNat n).toNat = n := by
  rw [UInt8.toNat_ofNat', Nat.mod_eq_of_lt h]

theorem toNat_tail (n : Nat) : (UInt8.ofNat (0x80 + n % 64)).toNat = 0x80 + n % 64 := toNat_octet (by omega)

theorem continues_tail (n : Nat) : continues (UInt8.ofNat (0x80 + n % 64)) = true := by
  rw [continues, toNat_tail, Bool.and_eq_true, decide_eq_true_eq, decide_eq_true_eq]
  omega

section

variable {a b c d : UInt8}

theorem decodeFrom_one (i : Nat) (rest : List UInt8) (hw : width a = .one) :
    decodeFrom i (a :: rest) = (Char.ofNat a.toNat :: ·) <$> decodeFrom (i + 1) rest := by
  rw [decodeFrom.eq_def]
  simp only [hw]

theorem decodeFrom_two (i : Nat) (rest : List UInt8) (hw : width a = .two) (hb : continues b = true) :
    decodeFrom i (a :: b :: rest) =
      (Char.ofNat ((a.toNat - 0xC0) * 64 + (b.toNat - 0x80)) :: ·) <$> decodeFrom (i + 2) rest := by
  rw [decodeFrom.eq_def]
  simp only [hw, hb, if_true]

theorem decodeFrom_three (i : Nat) (rest : List UInt8) (hw : width a = .three) (hb : continuesThree a b = true)
    (hc : continues c = true) :
    decodeFrom i (a :: b :: c :: rest) =
      (Char.ofNat ((a.toNat - 0xE0) * 4096 + (b.toNat - 0x80) * 64 + (c.toNat - 0x80)) :: ·) <$>
        decodeFrom (i + 3) rest := by
  rw [decodeFrom.eq_def]
  simp only [hw, hb, hc, if_true]

theorem decodeFrom_four (i : Nat) (rest : List UInt8) (hw : width a = .four) (hb : continuesFour a b = true)
    (hc : continues c = true) (hd : continues d = true) :
    decodeFrom i (a :: b :: c :: d :: rest) =
      (Char.ofNat ((a.toNat - 0xF0) * 262144 + (b.toNat - 0x80) * 4096 + (c.toNat - 0x80) * 64 +
        (d.toNat - 0x80)) :: ·) <$> decodeFrom (i + 4) rest := by
  rw [decodeFrom.eq_def]
  simp only [hw, hb, hc, hd, if_true]

end

section

variable {n : Nat} (i : Nat) (rest : List UInt8)

theorem decodeFrom_oneOctet (hhigh : n < 0x80) :
    decodeFrom i (.ofNat n :: rest) = (Char.ofNat n :: ·) <$> decodeFrom (i + 1) rest := by
  have ha : (UInt8.ofNat n).toNat = n := toNat_octet (by omega)
  rw [decodeFrom_one i rest, ha]
  rw [width, ha, if_pos hhigh]

theorem decodeFrom_twoOctets (hlow : 0x80 ≤ n) (hhigh : n < 0x800) :
    decodeFrom i (.ofNat (0xC0 + n / 64) :: .ofNat (0x80 + n % 64) :: rest) =
      (Char.ofNat n :: ·) <$> decodeFrom (i + 2) rest := by
  have ha : (UInt8.ofNat (0xC0 + n / 64)).toNat = 0xC0 + n / 64 := toNat_octet (by omega)
  have hw : width (.ofNat (0xC0 + n / 64)) = .two := by
    rw [width, ha, if_neg (by omega), if_neg (by omega), if_pos (by omega)]
  have hn : (0xC0 + n / 64 - 0xC0) * 64 + (0x80 + n % 64 - 0x80) = n := by omega
  rw [decodeFrom_two i rest hw (continues_tail n), ha, toNat_tail, hn]

/-- No surrogate is a character, so the second octet is one that the first allows. -/
theorem decodeFrom_threeOctets (hlow : 0x800 ≤ n) (hhigh : n < 0x10000) (hchar : n < 0xD800 ∨ 0xDFFF < n) :
    decodeFrom i (.ofNat (0xE0 + n / 4096) :: .ofNat (0x80 + n / 64 % 64) :: .ofNat (0x80 + n % 64) :: rest) =
      (Char.ofNat n :: ·) <$> decodeFrom (i + 3) rest := by
  have ha : (UInt8.ofNat (0xE0 + n / 4096)).toNat = 0xE0 + n / 4096 := toNat_octet (by omega)
  have hw : width (.ofNat (0xE0 + n / 4096)) = .three := by
    rw [width, ha, if_neg (by omega), if_neg (by omega), if_neg (by omega), if_pos (by omega)]
  have hb : continuesThree (.ofNat (0xE0 + n / 4096)) (.ofNat (0x80 + n / 64 % 64)) = true := by
    simp only [continuesThree, continues_tail, ha, toNat_tail, Bool.true_and, Bool.and_eq_true, Bool.not_eq_true',
      Bool.and_eq_false_iff, beq_eq_false_iff_ne, decide_eq_false_iff_not]
    omega
  have hn : (0xE0 + n / 4096 - 0xE0) * 4096 + (0x80 + n / 64 % 64 - 0x80) * 64 + (0x80 + n % 64 - 0x80) = n := by
    omega
  rw [decodeFrom_three i rest hw hb (continues_tail n), ha, toNat_tail, toNat_tail, hn]

theorem decodeFrom_fourOctets (hlow : 0x10000 ≤ n) (hhigh : n < 0x110000) :
    decodeFrom i (.ofNat (0xF0 + n / 262144) :: .ofNat (0x80 + n / 4096 % 64) :: .ofNat (0x80 + n / 64 % 64) ::
      .ofNat (0x80 + n % 64) :: rest) = (Char.ofNat n :: ·) <$> decodeFrom (i + 4) rest := by
  have ha : (UInt8.ofNat (0xF0 + n / 262144)).toNat = 0xF0 + n / 262144 := toNat_octet (by omega)
  have hw : width (.ofNat (0xF0 + n / 262144)) = .four := by
    rw [width, ha, if_neg (by omega), if_neg (by omega), if_neg (by omega), if_neg (by omega), if_pos (by omega)]
  have hb : continuesFour (.ofNat (0xF0 + n / 262144)) (.ofNat (0x80 + n / 4096 % 64)) = true := by
    simp only [continuesFour, continues_tail, ha, toNat_tail, Bool.true_and, Bool.and_eq_true, Bool.not_eq_true',
      Bool.and_eq_false_iff, beq_eq_false_iff_ne, decide_eq_false_iff_not]
    omega
  have hn : (0xF0 + n / 262144 - 0xF0) * 262144 + (0x80 + n / 4096 % 64 - 0x80) * 4096 +
      (0x80 + n / 64 % 64 - 0x80) * 64 + (0x80 + n % 64 - 0x80) = n := by omega
  rw [decodeFrom_four i rest hw hb (continues_tail _) (continues_tail n), ha, toNat_tail, toNat_tail, toNat_tail, hn]

/-- A character is read back from its octets, whatever follows them. -/
theorem decodeFrom_encodeChar (c : Char) :
    decodeFrom i (encodeChar c ++ rest) = (c :: ·) <$> decodeFrom (i + (encodeChar c).length) rest := by
  have hv : c.toNat < 0xD800 ∨ 0xDFFF < c.toNat ∧ c.toNat < 0x110000 := c.valid
  have hc : Char.ofNat c.toNat = c := Char.ofNat_toNat c
  rw [encodeChar]
  by_cases h1 : c.toNat < 0x80
  · have h := decodeFrom_oneOctet i rest h1
    rw [hc] at h
    rw [if_pos h1]
    exact h
  by_cases h2 : c.toNat < 0x800
  · have h := decodeFrom_twoOctets i rest (by omega) h2
    rw [hc] at h
    rw [if_neg h1, if_pos h2]
    exact h
  by_cases h3 : c.toNat < 0x10000
  · have h := decodeFrom_threeOctets i rest (by omega) h3 (by omega)
    rw [hc] at h
    rw [if_neg h1, if_neg h2, if_pos h3]
    exact h
  · have h4 : c.toNat < 0x110000 := by omega
    have h := decodeFrom_fourOctets i rest (by omega) h4
    rw [hc] at h
    rw [if_neg h1, if_neg h2, if_neg h3]
    exact h

end

theorem decodeFrom_encode (i : Nat) (cs : List Char) : decodeFrom i (encode cs) = .ok cs := by
  induction cs generalizing i with
  | nil => rfl
  | cons c cs ih =>
      rw [encode, List.flatMap_cons, decodeFrom_encodeChar, ← encode, ih]
      rfl

theorem decode_encode (cs : List Char) : decode (encode cs) = .ok cs := decodeFrom_encode 0 cs

/-- Only faults tell where reading began. -/
theorem decodeFrom_eq_ok_of {i j : Nat} {bs : List UInt8} {cs : List Char} (h : decodeFrom i bs = .ok cs) :
    decodeFrom j bs = .ok cs := by
  fun_induction decodeFrom i bs generalizing j cs with
  | case1 => exact h
  | case2 i a rest hw ih =>
      obtain ⟨ds, hds, rfl⟩ := map_eq_ok_iff.mp h
      rw [decodeFrom_one j rest hw, ih hds]
      rfl
  | case5 i a hw b rest hb ih =>
      obtain ⟨ds, hds, rfl⟩ := map_eq_ok_iff.mp h
      rw [decodeFrom_two j rest hw hb, ih hds]
      rfl
  | case9 i a hw b hb c rest hc ih =>
      obtain ⟨ds, hds, rfl⟩ := map_eq_ok_iff.mp h
      rw [decodeFrom_three j rest hw hb hc, ih hds]
      rfl
  | case15 i a hw b hb c hc d rest hd ih =>
      obtain ⟨ds, hds, rfl⟩ := map_eq_ok_iff.mp h
      rw [decodeFrom_four j rest hw hb hc hd, ih hds]
      rfl
  | _ => cases h

theorem encode_append (cs ds : List Char) : encode (cs ++ ds) = encode cs ++ encode ds := List.flatMap_append

/-- Characters below U+0080 are their own octets. -/
theorem encode_ascii {cs : List Char} (h : ∀ c ∈ cs, c.toNat < 0x80) :
    encode cs = cs.map fun c => UInt8.ofNat c.toNat := by
  induction cs with
  | nil => rfl
  | cons c cs ih =>
      rw [List.forall_mem_cons] at h
      rw [encode, List.flatMap_cons, ← encode, ih h.2, encodeChar, if_pos h.1]
      rfl

end Utf8

/-! ## Percent encoding -/

namespace Percent

open Utf8 (toNat_octet)

theorem toNat_ascii {n : Nat} (h : n < 0x80) : (Char.ofNat n).toNat = n := by
  have hv : n.isValidChar := .inl (by omega)
  rw [Char.ofNat, dif_pos hv]
  rfl

theorem toNat_hexDigit {n : Nat} (h : n < 16) : (hexDigit n).toNat = if n < 10 then 48 + n else 55 + n := by
  rw [hexDigit]
  split
  · exact toNat_ascii (by omega)
  · exact toNat_ascii (by omega)

theorem hexValue?_hexDigit {n : Nat} (h : n < 16) : hexValue? (UInt8.ofNat (hexDigit n).toNat) = some n := by
  have hd := toNat_hexDigit h
  have ho : (UInt8.ofNat (hexDigit n).toNat).toNat = (hexDigit n).toNat := toNat_octet (by split at hd <;> omega)
  rw [hexValue?, ho, hd]
  split
  · rw [if_pos (by omega)]
    exact congrArg some (by omega)
  · rw [if_neg (by omega), if_pos (by omega)]
    exact congrArg some (by omega)

theorem hexDigit_ne_percent {n : Nat} (h : n < 16) : hexDigit n ≠ '%' := by
  intro he
  have hd := toNat_hexDigit h
  rw [he, show '%'.toNat = 37 from rfl] at hd
  split at hd <;> omega

/-- Only the mark has the digits of its escape. -/
theorem eq_mark_of_hexDigit {b : UInt8} (hhi : hexDigit (b.toNat / 16) = '2')
    (hlo : hexDigit (b.toNat % 16) = '1') : b = 33 := by
  have hlt : b.toNat < 256 := b.toNat_lt
  have htwo := toNat_hexDigit (n := b.toNat / 16) (by omega)
  have hone := toNat_hexDigit (n := b.toNat % 16) (by omega)
  rw [hhi, show '2'.toNat = 50 from rfl] at htwo
  rw [hlo, show '1'.toNat = 49 from rfl] at hone
  refine UInt8.toNat_inj.mp (show b.toNat = 33 from ?_)
  split at htwo <;> split at hone <;> omega

/-- Octets that may stand for themselves: the unreserved ones and the mark of negation. -/
def IsPlain (b : UInt8) : Prop := isUnreserved b = true ∨ b = 33

/-- The characters that an octet may be written as: its own, or its escape. -/
inductive Spells (b : UInt8) : List Char → Prop
  | plain : IsPlain b → Spells b [Char.ofNat b.toNat]
  | escaped : Spells b ['%', hexDigit (b.toNat / 16), hexDigit (b.toNat % 16)]

theorem spells_encodeOctet (b : UInt8) : Spells b (encodeOctet b) := by
  rw [encodeOctet]
  split
  · rename_i h
    exact .plain (.inl h)
  · exact .escaped

/-- Below 128, and neither the percent sign nor one of `&`, `+`, `=` and `?`, which part a query string. -/
theorem IsPlain.toNat_bounds {b : UInt8} (h : IsPlain b) : b.toNat < 0x80 ∧ b.toNat ≠ 37 ∧ b.toNat ≠ 38 ∧
    b.toNat ≠ 43 ∧ b.toNat ≠ 61 ∧ b.toNat ≠ 63 := by
  rcases h with h | rfl
  · simp only [isUnreserved, Bool.or_eq_true, Bool.and_eq_true, decide_eq_true_eq, beq_iff_eq] at h
    omega
  · decide

theorem Spells.toNat_bounds {b : UInt8} {s : List Char} (h : Spells b s) : ∀ c ∈ s, c.toNat < 0x80 ∧
    c.toNat ≠ 38 ∧ c.toNat ≠ 43 ∧ c.toNat ≠ 61 ∧ c.toNat ≠ 63 := by
  cases h with
  | plain hp =>
      obtain ⟨hb, -, hs⟩ := hp.toNat_bounds
      rw [List.forall_mem_singleton, toNat_ascii hb]
      exact ⟨hb, hs⟩
  | escaped =>
      have hb : b.toNat < 256 := b.toNat_lt
      have hhi := toNat_hexDigit (n := b.toNat / 16) (by omega)
      have hlo := toNat_hexDigit (n := b.toNat % 16) (by omega)
      simp only [List.forall_mem_cons, List.not_mem_nil, false_imp_iff, implies_true, and_true]
      refine ⟨by decide, ?_, ?_⟩
      · split at hhi <;> omega
      · split at hlo <;> omega

theorem decodeOctets_cons {a : UInt8} (h : a.toNat ≠ 37) (rest : List UInt8) :
    decodeOctets (a :: rest) = a :: decodeOctets rest := by
  match rest with
  | [] => rfl
  | [_] => rfl
  | b :: c :: rest => rw [decodeOctets, if_neg h]

theorem Spells.decodeOctets_eq {b : UInt8} {s : List Char} (h : Spells b s) (rest : List UInt8) :
    decodeOctets (Utf8.encode s ++ rest) = b :: decodeOctets rest := by
  rw [Utf8.encode_ascii fun c hc => (h.toNat_bounds c hc).1]
  cases h with
  | plain hp =>
      obtain ⟨hb, hne, -⟩ := hp.toNat_bounds
      rw [List.map_singleton, toNat_ascii hb, UInt8.ofNat_toNat, List.singleton_append, decodeOctets_cons hne]
  | escaped =>
      have hb : b.toNat < 256 := b.toNat_lt
      have hpercent : (UInt8.ofNat '%'.toNat).toNat = 37 := rfl
      simp only [List.map_cons, List.map_nil, List.cons_append, List.nil_append]
      rw [decodeOctets, if_pos hpercent, hexValue?_hexDigit (by omega), hexValue?_hexDigit (by omega)]
      dsimp only
      rw [show b.toNat / 16 * 16 + b.toNat % 16 = b.toNat by omega, UInt8.ofNat_toNat]

variable {spelling : UInt8 → List Char}

theorem decodeOctets_flatMap (h : ∀ b, Spells b (spelling b)) (bs : List UInt8) :
    decodeOctets (Utf8.encode (bs.flatMap spelling)) = bs := by
  induction bs with
  | nil => rfl
  | cons b bs ih => rw [List.flatMap_cons, Utf8.encode_append, (h b).decodeOctets_eq, ih]

/-- A text is read back from its octets, each written in one of its two ways. -/
theorem decode_flatMap (h : ∀ b, Spells b (spelling b)) (cs : List Char) :
    decode ((Utf8.encode cs).flatMap spelling) = .ok cs := by
  rw [decode, decodeOctets_flatMap h, Utf8.decode_encode]

/-- A character of one octet that begins no escape stands for itself. -/
theorem decode_cons {c : Char} (hc : c.toNat < 0x80) (hne : c.toNat ≠ 37) {cs ds : List Char}
    (h : decode cs = .ok ds) : decode (c :: cs) = .ok (c :: ds) := by
  have hoctet : (UInt8.ofNat c.toNat).toNat = c.toNat := Utf8.toNat_octet (by omega)
  have hpercent : (UInt8.ofNat c.toNat).toNat ≠ 37 := by rwa [hoctet]
  have hencode : Utf8.encode (c :: cs) = UInt8.ofNat c.toNat :: Utf8.encode cs := by
    rw [Utf8.encode, List.flatMap_cons, Utf8.encodeChar, if_pos hc]
    rfl
  rw [decode, hencode, decodeOctets_cons hpercent, Utf8.decode, Utf8.decodeFrom_oneOctet _ _ hc,
    Utf8.decodeFrom_eq_ok_of h, Char.ofNat_toNat]
  rfl

theorem toNat_bounds_of_mem_flatMap (h : ∀ b, Spells b (spelling b)) {bs : List UInt8} {c : Char}
    (hc : c ∈ bs.flatMap spelling) :
    c.toNat ≠ 38 ∧ c.toNat ≠ 43 ∧ c.toNat ≠ 61 ∧ c.toNat ≠ 63 := by
  obtain ⟨b, -, hcb⟩ := List.mem_flatMap.mp hc
  exact ((h b).toNat_bounds c hcb).2

end Percent

end FacetedSearch.Text
