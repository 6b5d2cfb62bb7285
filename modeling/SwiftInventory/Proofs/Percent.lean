import SwiftInventory.Percent
import SwiftInventory.Proofs.Utf8.Reading

namespace SwiftInventory.Percent

open Text

def isWritten (c : Char) : Bool :=
  c.toNat < 0x80 && (c.isAlphanum || "_.-~/:".toList.contains c || c == '%')

variable {octet : UInt8} {c : Char} {s : List Char}

theorem value?_upper {n : Nat} (h : n < 16) : Hex.value? (Hex.upper n) = some n := by
  have hall : ∀ n : Fin 16, Hex.value? (Hex.upper n) = some n.val := by decide
  exact hall ⟨n, h⟩

theorem isWritten_upper {n : Nat} (h : n < 16) :
    isWritten (Hex.upper n) = true ∧ (Hex.upper n).isAlphanum = true := by
  have hall : ∀ n : Fin 16, isWritten (Hex.upper n) = true ∧ (Hex.upper n).isAlphanum = true := by
    decide
  exact hall ⟨n, h⟩

theorem high_lt (octet : UInt8) : octet.toNat / 16 < 16 := by
  have hlt := octet.toNat_lt
  omega

theorem low_lt (octet : UInt8) : octet.toNat % 16 < 16 := Nat.mod_lt _ (by decide)

theorem encodeOctet_of_plain (h : isPlain octet = true) :
    encodeOctet octet = [Char.ofNat octet.toNat] := if_pos h

theorem encodeOctet_of_not_plain (h : isPlain octet = false) :
    encodeOctet octet =
      ['%', Hex.upper (octet.toNat / 16), Hex.upper (octet.toNat % 16)] := by
  rw [encodeOctet, if_neg (by simp [h])]
  simp [Hex.padded, Nat.mod_eq_of_lt (high_lt octet)]

theorem octet?_upper (octet : UInt8) :
    octet? (Hex.upper (octet.toNat / 16)) (Hex.upper (octet.toNat % 16)) = some octet := by
  rw [octet?, value?_upper (high_lt octet), value?_upper (low_lt octet)]
  simp only [Nat.div_add_mod' octet.toNat 16, UInt8.ofNat_toNat]

theorem lt_of_isPlain (h : isPlain octet = true) : octet.toNat < 0x80 := by
  simp only [isPlain, Bool.and_eq_true, decide_eq_true_eq] at h
  exact UInt8.lt_iff_toNat_lt.1 h.1

theorem mem_encodeOctet_of_not_plain (h : isPlain octet = false) (hmem : c ∈ encodeOctet octet) :
    isWritten c = true ∧ (c = '%' ∨ c.isAlphanum = true) := by
  rw [encodeOctet_of_not_plain h] at hmem
  simp only [List.mem_cons, List.not_mem_nil, or_false] at hmem
  rcases hmem with rfl | rfl | rfl
  · exact ⟨by decide, .inl rfl⟩
  · exact (isWritten_upper (high_lt octet)).imp_right .inr
  · exact (isWritten_upper (low_lt octet)).imp_right .inr

theorem isWritten_of_mem_encodeOctet (h : c ∈ encodeOctet octet) : isWritten c = true := by
  cases hp : isPlain octet with
  | true =>
    rw [encodeOctet_of_plain hp, List.mem_singleton] at h
    have hlt : c.toNat < 0x80 := by
      rw [h, Utf8.toNat_ofNat_of_form (.one (lt_of_isPlain hp))]
      exact lt_of_isPlain hp
    rw [isPlain, Bool.and_eq_true] at hp
    rw [isWritten, Bool.and_eq_true, decide_eq_true_iff]
    exact ⟨hlt, by rw [h, hp.2, Bool.true_or]⟩
  | false => exact (mem_encodeOctet_of_not_plain hp h).1

theorem isWritten_of_mem_encode (h : c ∈ encode s) : isWritten c = true := by
  obtain ⟨octet, -, hc⟩ := List.mem_flatMap.1 h
  exact isWritten_of_mem_encodeOctet hc

theorem mem_of_mem_encode (hdigit : c.isAlphanum = false) (hpercent : c ≠ '%')
    (h : c ∈ encode s) : c ∈ s := by
  obtain ⟨octet, hoctet, hmem⟩ := List.mem_flatMap.1 h
  obtain ⟨d, hd, hoctet⟩ := List.mem_flatMap.1 hoctet
  cases hp : isPlain octet with
  | true =>
    rw [encodeOctet_of_plain hp, List.mem_singleton] at hmem
    have hd' := (Utf8.form_utf8EncodeChar d).toNat_of_mem hoctet (lt_of_isPlain hp)
    rwa [hmem, hd', Char.ofNat_toNat]
  | false =>
    rcases (mem_encodeOctet_of_not_plain hp hmem).2 with rfl | hc
    · contradiction
    · rw [hc] at hdigit
      cases hdigit

theorem octetsFrom_of_ne {done : List UInt8} (h : c ≠ '%') :
    octetsFrom done (c :: s) = octetsFrom ((String.utf8EncodeChar c).reverse ++ done) s := by
  rw [octetsFrom]
  rintro high low rest ⟨⟩ -
  exact h rfl

theorem octetsFrom_encodeOctet (done : List UInt8) (octet : UInt8) (s : List Char) :
    octetsFrom done (encodeOctet octet ++ s) = octetsFrom (octet :: done) s := by
  cases hp : isPlain octet with
  | true =>
    have hne : Char.ofNat octet.toNat ≠ '%' := by
      intro he
      rw [isPlain, he, Bool.and_eq_true] at hp
      exact absurd hp.2 (by decide)
    rw [encodeOctet_of_plain hp, List.singleton_append, octetsFrom_of_ne hne,
      Utf8.utf8EncodeChar_of_form (.one (lt_of_isPlain hp))]
    rfl
  | false =>
    rw [encodeOctet_of_not_plain hp, List.cons_append, List.cons_append, List.singleton_append,
      octetsFrom, octet?_upper]

theorem octetsFrom_flatMap (done octets : List UInt8) :
    octetsFrom done (octets.flatMap encodeOctet) = done.reverse ++ octets := by
  induction octets generalizing done with
  | nil => simp [octetsFrom]
  | cons octet octets ih =>
    rw [List.flatMap_cons, octetsFrom_encodeOctet, ih, List.reverse_cons, List.append_assoc,
      List.singleton_append]

theorem decode_encode (s : List Char) : decode (encode s) = s := by
  rw [decode, encode, octetsFrom_flatMap, List.reverse_nil, List.nil_append,
    Utf8.decodeLossy_encode]

end SwiftInventory.Percent
