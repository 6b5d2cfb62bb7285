import Mathlib.Order.Bounds.Defs
import SwiftInventory.Proofs.Utf8.Form

namespace SwiftInventory.Text.Utf8

/-- Octets are well-formed when they are forms of code points, one after the other. -/
def IsWellFormed (octets : List UInt8) : Prop :=
  ∃ forms : List (List UInt8), (∀ form ∈ forms, ∃ n, Form form n) ∧ forms.flatten = octets

def StartsWithChar (octets : List UInt8) : Prop :=
  ∃ c rest, octets = String.utf8EncodeChar c ++ rest

/-- The lengths of the well-formed parts at the front. -/
def wellFormedLengths (octets : List UInt8) : Set Nat :=
  {n | ∃ front, front <+: octets ∧ IsWellFormed front ∧ front.length = n}

variable {octets rest : List UInt8} {c : Char} {s done : List Char} {p : Pending}

section Reading

variable {position : Nat} {first : UInt8}

theorem decodeFrom_completes (h : p.Completes octets c) :
    decodeFrom position done (some (first, p)) (octets ++ rest) =
      decodeFrom (position + octets.length) (c :: done) none rest := by
  induction h generalizing position with
  | last hstep => simp [decodeFrom, hstep]
  | next hstep _ ih => simp [decodeFrom, hstep, ih, Nat.add_assoc, Nat.add_comm 1]

theorem decodeFrom_spells (h : Spells octets c) :
    decodeFrom position done none (octets ++ rest) =
      decodeFrom (position + octets.length) (c :: done) none rest := by
  cases h with
  | one hstart => simp [decodeFrom, hstart]
  | more hstart hrest =>
    simp [decodeFrom, hstart, decodeFrom_completes hrest, Nat.add_assoc, Nat.add_comm 1]

theorem decodeLossyFrom_completes (h : p.Completes octets c) :
    decodeLossyFrom done (some p) (octets ++ rest) = decodeLossyFrom (c :: done) none rest := by
  induction h with
  | last hstep => simp [decodeLossyFrom, hstep]
  | next hstep _ ih => simp [decodeLossyFrom, hstep, ih]

theorem decodeLossyFrom_spells (h : Spells octets c) :
    decodeLossyFrom done none (octets ++ rest) = decodeLossyFrom (c :: done) none rest := by
  cases h with
  | one hstart => simp [decodeLossyFrom, substitute, hstart]
  | more hstart hrest =>
    simp [decodeLossyFrom, substitute, hstart, decodeLossyFrom_completes hrest]

theorem encode_cons (c : Char) (s : List Char) :
    encode (c :: s) = String.utf8EncodeChar c ++ encode s := List.flatMap_cons

theorem decodeFrom_encode :
    decodeFrom position done none (encode s ++ rest) =
      decodeFrom (position + (encode s).length) (s.reverse ++ done) none rest := by
  induction s generalizing position done with
  | nil => simp [encode]
  | cons c s ih =>
    rw [encode_cons, List.append_assoc, decodeFrom_spells (spells_iff.2 rfl), ih,
      List.length_append, List.reverse_cons, List.append_assoc, List.singleton_append,
      Nat.add_assoc]

theorem decodeLossyFrom_encode :
    decodeLossyFrom done none (encode s) = done.reverse ++ s := by
  induction s generalizing done with
  | nil => simp [encode, decodeLossyFrom]
  | cons c s ih =>
    rw [encode_cons, decodeLossyFrom_spells (spells_iff.2 rfl), ih, List.reverse_cons,
      List.append_assoc, List.singleton_append]

theorem decodeLossy_encode (s : List Char) : decodeLossy (encode s) = s := decodeLossyFrom_encode

end Reading

theorem exists_fault_pending {position : Nat} {first : UInt8} (hsize : p.size ≤ position)
    (h : ∀ head tail c, octets = head ++ tail → ¬ p.Completes head c) :
    ∃ fault, decodeFrom position done (some (first, p)) octets = .error fault ∧
      fault.position + p.size = position := by
  induction octets generalizing position p with
  | nil => exact ⟨_, rfl, Nat.sub_add_cancel hsize⟩
  | cons octet octets ih =>
    rw [decodeFrom]
    split <;> rename_i hstep
    · exact absurd (.last hstep) (h [octet] octets _ rfl)
    · rename_i p'
      have hsize' : p'.size = p.size + 1 := by
        obtain ⟨-, -, rfl⟩ := step_eq_more.1 hstep
        rfl
      have hle : p'.size ≤ position + 1 := by omega
      have hrest : ∀ head tail c, octets = head ++ tail → ¬ p'.Completes head c :=
        fun head tail c he hc ↦ h (octet :: head) tail c (congrArg _ he) (.next hstep hc)
      obtain ⟨fault, hfault, hposition⟩ := ih hle hrest
      exact ⟨fault, hfault, by omega⟩
    · exact ⟨_, rfl, Nat.sub_add_cancel hsize⟩

theorem exists_fault {position : Nat} (hne : octets ≠ []) (h : ¬ StartsWithChar octets) :
    ∃ fault, decodeFrom position done none octets = .error fault ∧ fault.position = position := by
  have hspells : ∀ head tail c, octets = head ++ tail → ¬ Spells head c :=
    fun head tail c he hs ↦ h ⟨c, tail, by rw [he, spells_iff.1 hs]⟩
  obtain ⟨octet, octets, rfl⟩ := List.exists_cons_of_ne_nil hne
  rw [decodeFrom]
  split <;> rename_i hstart
  · exact absurd (.one hstart) (hspells [octet] octets _ rfl)
  · rename_i p
    have hsize : p.size = 1 := by cases start_eq_more.1 hstart <;> rfl
    have hle : p.size ≤ position + 1 := by omega
    have hrest : ∀ head tail c, octets = head ++ tail → ¬ p.Completes head c :=
      fun head tail c he hc ↦ hspells (octet :: head) tail c (congrArg _ he) (.more hstart hc)
    obtain ⟨fault, hfault, hposition⟩ := exists_fault_pending hle hrest
    exact ⟨fault, hfault, by omega⟩
  · exact ⟨_, rfl, rfl⟩

theorem exists_text (octets : List UInt8) :
    ∃ s rest, octets = encode s ++ rest ∧ ¬ StartsWithChar rest := by
  by_cases h : StartsWithChar octets
  · obtain ⟨c, rest, rfl⟩ := h
    obtain ⟨s, rest, rfl, hrest⟩ := exists_text rest
    exact ⟨c :: s, rest, by rw [encode_cons, List.append_assoc], hrest⟩
  · exact ⟨[], octets, rfl, h⟩
termination_by octets.length
decreasing_by simp [*, Char.utf8Size_pos]

theorem decode_encode (s : List Char) : decode (encode s) = .ok s := by
  have h : decodeFrom 0 [] none (encode s ++ []) = _ := decodeFrom_encode
  rw [List.append_nil, List.append_nil, decodeFrom, List.reverse_reverse] at h
  exact h

theorem decode_encode_append (h : ¬ StartsWithChar rest) (hne : rest ≠ []) :
    ∃ fault, decode (encode s ++ rest) = .error fault ∧
      fault.position = (encode s).length := by
  rw [decode, decodeFrom_encode, Nat.zero_add]
  exact exists_fault hne h

theorem decode_eq_ok : decode octets = .ok s ↔ encode s = octets := by
  refine ⟨fun h ↦ ?_, fun h ↦ h ▸ decode_encode s⟩
  obtain ⟨t, rest, rfl, hrest⟩ := exists_text octets
  by_cases hne : rest = []
  · rw [hne, List.append_nil, decode_encode, Except.ok.injEq] at h
    rw [hne, List.append_nil, h]
  · obtain ⟨fault, hfault, -⟩ := decode_encode_append (s := t) hrest hne
    rw [hfault] at h
    cases h

theorem isWellFormed_iff : IsWellFormed octets ↔ ∃ s, encode s = octets := by
  constructor
  · rintro ⟨forms, hforms, rfl⟩
    induction forms with
    | nil => exact ⟨[], rfl⟩
    | cons form forms ih =>
      obtain ⟨n, hform⟩ := hforms form List.mem_cons_self
      obtain ⟨s, hs⟩ := ih fun form hmem ↦ hforms form (List.mem_cons_of_mem _ hmem)
      refine ⟨Char.ofNat n :: s, ?_⟩
      rw [encode_cons, ← spells_iff.1 hform.spells, hs, List.flatten_cons]
  · rintro ⟨s, rfl⟩
    refine ⟨s.map String.utf8EncodeChar, fun form hform ↦ ?_, List.flatMap_def.symm⟩
    obtain ⟨c, -, rfl⟩ := List.mem_map.1 hform
    exact ⟨_, form_utf8EncodeChar c⟩

theorem utf8EncodeChar_append_inj {d : Char} {octets' : List UInt8}
    (h : String.utf8EncodeChar c ++ octets = String.utf8EncodeChar d ++ octets') :
    c = d ∧ octets = octets' := by
  have hread (c : Char) (octets : List UInt8) :
      (String.utf8EncodeChar c ++ octets).toByteArray.utf8DecodeChar? 0 = some c := by
    rw [List.toByteArray_append, ByteArray.utf8DecodeChar?_utf8EncodeChar_append]
  have hcd : c = d := by
    rw [← Option.some.injEq, ← hread c octets, h, hread]
  exact ⟨hcd, List.append_cancel_left (hcd ▸ h)⟩

theorem length_encode_le {t : List Char} (h : ¬ StartsWithChar rest)
    (hfront : encode t <+: encode s ++ rest) : (encode t).length ≤ (encode s).length := by
  induction t generalizing s with
  | nil => exact Nat.zero_le _
  | cons c t ih =>
    obtain ⟨more, hmore⟩ := hfront
    rw [encode_cons, List.append_assoc] at hmore
    cases s with
    | nil => exact absurd ⟨c, _, hmore.symm⟩ h
    | cons d s =>
      rw [encode_cons, List.append_assoc] at hmore
      obtain ⟨rfl, hrest⟩ := utf8EncodeChar_append_inj hmore
      rw [encode_cons, encode_cons, List.length_append, List.length_append]
      exact Nat.add_le_add_left (ih ⟨more, hrest⟩) _

/-- A fault stands where the longest well-formed part at the front ends. -/
theorem isGreatest_position {fault : Fault} (h : decode octets = .error fault) :
    IsGreatest (wellFormedLengths octets) fault.position := by
  obtain ⟨s, rest, rfl, hrest⟩ := exists_text octets
  have hne : rest ≠ [] := by
    rintro rfl
    rw [List.append_nil, decode_encode] at h
    cases h
  obtain ⟨fault', hfault, hposition⟩ := decode_encode_append (s := s) hrest hne
  obtain rfl := Except.error.inj (h.symm.trans hfault)
  rw [hposition]
  refine ⟨⟨_, List.prefix_append _ _, isWellFormed_iff.2 ⟨s, rfl⟩, rfl⟩, ?_⟩
  rintro n ⟨front, hfront, hwell, rfl⟩
  obtain ⟨t, rfl⟩ := isWellFormed_iff.1 hwell
  exact length_encode_le hrest hfront

end SwiftInventory.Text.Utf8
