import SwiftInventory.Checksums

namespace SwiftInventory

namespace Digest

variable {order : Order} {α : Type} {size left : Nat} {group s : List α} {done : List (List α)}

theorem length_arrange (octets : List UInt8) : (order.arrange octets).length = octets.length := by
  cases order
  · rfl
  · exact List.length_reverse

theorem length_octetsOf (count n : Nat) : (octetsOf count n).length = count := by
  induction count generalizing n with
  | zero => rfl
  | succ count ih => rw [octetsOf, List.length_append, ih, List.length_singleton]

theorem groupsFrom_cons (a : α) (rest : List α) :
    groupsFrom size left group done (a :: rest) =
      if left ≤ 1 then groupsFrom size size [] ((a :: group).reverse :: done) rest
      else groupsFrom size (left - 1) (a :: group) done rest := rfl

theorem length_of_mem_groupsFrom (hleft : 0 < left) (hgroup : group.length + left = size)
    (hdone : ∀ g ∈ done, g.length = size) :
    ∀ g ∈ groupsFrom size left group done s, g.length = size := by
  induction s generalizing left group done with
  | nil => simpa [groupsFrom] using hdone
  | cons a rest ih =>
    rw [groupsFrom_cons]
    split <;> rename_i h
    · refine ih (by omega) (by simp) (List.forall_mem_cons.2 ⟨?_, hdone⟩)
      rw [List.length_reverse, List.length_cons]
      omega
    · exact ih (by omega) (by rw [List.length_cons]; omega) hdone

theorem flatten_groupsFrom (hleft : 0 < left) (hgroup : group.length + left = size)
    (hfull : size ∣ group.length + s.length) :
    (groupsFrom size left group done s).flatten = done.reverse.flatten ++ (group.reverse ++ s) := by
  induction s generalizing left group done with
  | nil =>
    have hlt : group.length < size := by omega
    have hnil : group = [] := List.eq_nil_of_length_eq_zero (Nat.eq_zero_of_dvd_of_lt hfull hlt)
    simp [groupsFrom, hnil]
  | cons a rest ih =>
    rw [List.length_cons] at hfull
    rw [groupsFrom_cons]
    split <;> rename_i h
    · have hrest : size ∣ ([] : List α).length + rest.length := by
        have hsum : group.length + (rest.length + 1) = size + rest.length := by omega
        rw [hsum] at hfull
        simpa using (Nat.dvd_add_right (Nat.dvd_refl size)).1 hfull
      rw [ih (by omega) (by simp) hrest]
      simp
    · have hrest : size ∣ (a :: group).length + rest.length := by
        rwa [List.length_cons, Nat.add_right_comm, Nat.add_assoc]
      rw [ih (by omega) (by rw [List.length_cons]; omega) hrest]
      simp

theorem length_of_mem_groups (hsize : 0 < size) {g : List α} (hg : g ∈ groups size s) :
    g.length = size :=
  length_of_mem_groupsFrom hsize (by simp) (by simp) g hg

theorem flatten_groups (hsize : 0 < size) (h : size ∣ s.length) : (groups size s).flatten = s := by
  rw [groups, flatten_groupsFrom hsize (by simp) (by simpa using h)]
  simp

theorem dvd_length_pad (order : Order) (message : List UInt8) :
    64 ∣ (pad order message).length := by
  simp only [pad, List.length_append, List.length_cons, List.length_replicate, length_arrange,
    length_octetsOf]
  omega

/-- The blocks are the whole of a padded message, cut into words. -/
theorem blocks_whole (message : List UInt8) :
    message <+: (groups 4 (pad order message)).flatten ∧
    (blocks order message).flatten = (groups 4 (pad order message)).map (word order) ∧
    (∀ octets ∈ groups 4 (pad order message), octets.length = 4) ∧
    ∀ block ∈ blocks order message, block.length = 16 := by
  have hfour : 4 ∣ (pad order message).length :=
    Nat.dvd_trans (by decide) (dvd_length_pad order message)
  have hwhole := flatten_groups (by decide) hfour
  have hgroups : ∀ octets ∈ groups 4 (pad order message), octets.length = 4 :=
    fun _ ↦ length_of_mem_groups (by decide)
  have hsixteen : 16 ∣ ((groups 4 (pad order message)).map (word order)).length := by
    have hlength := congrArg List.length hwhole
    rw [List.length_flatten, List.map_eq_replicate_iff.2 hgroups, List.sum_replicate_nat] at hlength
    have hpad := dvd_length_pad order message
    rw [List.length_map]
    omega
  refine ⟨?_, flatten_groups (by decide) hsixteen, hgroups,
    fun _ ↦ length_of_mem_groups (by decide)⟩
  rw [hwhole, pad, List.append_assoc]
  exact List.prefix_append _ _

def IsHexText (count : Nat) (s : String) : Prop :=
  s.toList.length = count ∧ ∀ c ∈ s.toList, c ∈ "0123456789abcdef".toList

theorem lower_mem {n : Nat} (h : n < 16) : Text.Hex.lower n ∈ "0123456789abcdef".toList := by
  have htable : ∀ n < 16, Text.Hex.lower n ∈ "0123456789abcdef".toList := by decide
  exact htable n h

theorem length_padded (digit : Nat → Char) (width n : Nat) :
    (Text.Hex.padded digit width n).length = width := by
  induction width generalizing n with
  | zero => rfl
  | succ width ih => rw [Text.Hex.padded, List.length_append, ih, List.length_singleton]

theorem mem_padded_lower {width n : Nat} {c : Char}
    (h : c ∈ Text.Hex.padded Text.Hex.lower width n) : c ∈ "0123456789abcdef".toList := by
  induction width generalizing n with
  | zero => cases h
  | succ width ih =>
    rcases List.mem_append.1 h with h | h
    · exact ih h
    · rw [List.mem_singleton.1 h]
      exact lower_mem (Nat.mod_lt n (by decide))

theorem length_flatMap_of_forall {β : Type} {f : α → List β} (count : Nat) (s : List α)
    (h : ∀ a, (f a).length = count) : (s.flatMap f).length = count * s.length := by
  rw [List.length_flatMap, List.map_eq_replicate_iff.2 fun a _ ↦ h a, List.sum_replicate_nat,
    Nat.mul_comm]

theorem isHexText_hex (words : List UInt32) : IsHexText (8 * words.length) (hex order words) := by
  have hword (w : UInt32) : ((order.arrange (octetsOf 4 w.toNat)).flatMap fun octet ↦
      Text.Hex.padded Text.Hex.lower 2 octet.toNat).length = 8 := by
    rw [length_flatMap_of_forall 2 _ fun _ ↦ length_padded ..]
    rw [length_arrange, length_octetsOf]
  rw [IsHexText, hex, String.toList_ofList]
  refine ⟨length_flatMap_of_forall 8 _ hword, fun c hc ↦ ?_⟩
  obtain ⟨w, -, hc⟩ := List.mem_flatMap.1 hc
  obtain ⟨octet, -, hc⟩ := List.mem_flatMap.1 hc
  exact mem_padded_lower hc

theorem Sha1.isHexText_digest (message : List UInt8) : IsHexText 40 (Sha1.digest message) :=
  isHexText_hex _

example : Sha1.digest "abc".toUTF8.toList = "a9993e364706816aba3e25717850c26c9cd0d89d" := by
  decide +kernel

theorem Sha256.isHexText_digest (message : List UInt8) : IsHexText 64 (Sha256.digest message) :=
  isHexText_hex _

example : Sha256.digest "abc".toUTF8.toList =
    "ba7816bf8f01cfea414140de5dae2223b00361a396177a9cb410ff61f20015ad" := by
  decide +kernel

theorem Md5.isHexText_digest (message : List UInt8) : IsHexText 32 (Md5.digest message) :=
  isHexText_hex _

example : Md5.digest "abc".toUTF8.toList = "900150983cd24fb0d6963f7d28e17f72" := by
  decide +kernel

end Digest

structure Checksums.IsHex (c : Checksums) : Prop where
  sha1 : Digest.IsHexText 40 c.sha1
  sha256 : Digest.IsHexText 64 c.sha256
  md5 : Digest.IsHexText 32 c.md5

end SwiftInventory
