import SwiftInventory.Config.Environment
import SwiftInventory.Proofs.WholeNumber

namespace SwiftInventory.Environment

open Text

variable {s : Option String} {n size : Nat} {log : List Message}

/-- Yes in one of its spellings, or nothing at all. -/
def MeansYes (s : Option String) : Prop :=
  String.ofList (lowercase (trim (s.getD "").toList)) ∈ ["", "true", "1", "yes", "on"]

instance (s : Option String) : Decidable (MeansYes s) := inferInstanceAs (Decidable (_ ∈ _))

def AsksFor (s : Option String) (n : Nat) : Prop :=
  0 < n ∧ ∃ text, s = some text ∧ Integer.Denotes text.toList n

theorem flag_iff : flag true s = true ↔ MeansYes s := by
  rw [flag, MeansYes, List.mem_cons]
  generalize String.ofList (lowercase (trim (s.getD "").toList)) = word
  by_cases h : word = "" <;> simp [h, affirmations]

/-- What becomes of a size limit, and what is said about it. -/
inductive SizeSetting (byDefault : Nat) : Option String → Nat → List Message → Prop
  | unset : SizeSetting byDefault none byDefault []
  | given {text : String} {n : Nat} (h : Integer.Denotes text.toList n) (hn : 0 < n) :
      SizeSetting byDefault (some text) n []
  | notPositive {text : String} {n : Int} (h : Integer.Denotes text.toList n) (hn : n ≤ 0) :
      SizeSetting byDefault (some text) byDefault [unusableSize]
  | noNumber {text : String} (h : ∀ n, ¬ Integer.Denotes text.toList n) :
      SizeSetting byDefault (some text) byDefault [invalidSize]

theorem sizeSetting_applySize (base : ScanConfig) (s : Option String) :
    SizeSetting base.maxMegabytes s (applySize base s).1.maxMegabytes (applySize base s).2 := by
  cases s with
  | none => exact .unset
  | some text =>
    rw [applySize]
    cases hread : Integer.read? text.toList with
    | none =>
      apply SizeSetting.noNumber
      intro n h
      rw [Integer.read?_eq_some.2 h] at hread
      cases hread
    | some n =>
      have hdenotes := Integer.read?_eq_some.1 hread
      dsimp only
      split
      · rename_i hpos
        apply SizeSetting.given _ hpos
        rw [Int.toNat_of_nonneg (by omega)]
        exact hdenotes
      · rename_i hpos
        exact .notPositive hdenotes (by omega)

theorem applySize_keeps (base : ScanConfig) (s : Option String) :
    (applySize base s).1.manifestEnabled = base.manifestEnabled ∧
      (applySize base s).1.lockEnabled = base.lockEnabled ∧
      (applySize base s).1.ignorePatterns = base.ignorePatterns := by
  cases s with
  | none => exact ⟨rfl, rfl, rfl⟩
  | some text =>
    rw [applySize]
    split
    · exact ⟨rfl, rfl, rfl⟩
    · split <;> exact ⟨rfl, rfl, rfl⟩

theorem SizeSetting.unique {byDefault size' : Nat} {log' : List Message}
    (h : SizeSetting byDefault s size log) (h' : SizeSetting byDefault s size' log') :
    size' = size ∧ log' = log := by
  cases h with
  | unset =>
    cases h'
    exact ⟨rfl, rfl⟩
  | given h hpos =>
    cases h' with
    | given h' _ => exact ⟨Int.ofNat.inj (h'.unique h), rfl⟩
    | notPositive h' hle =>
      have hn := h.unique h'
      omega
    | noNumber h' => exact absurd h (h' _)
  | notPositive h hle =>
    cases h' with
    | given h' hpos =>
      have hn := h.unique h'
      omega
    | notPositive h' _ => exact ⟨rfl, rfl⟩
    | noNumber h' => exact absurd h (h' _)
  | noNumber h =>
    cases h' with
    | given h' _ => exact absurd h' (h _)
    | notPositive h' _ => exact absurd h' (h _)
    | noNumber _ => exact ⟨rfl, rfl⟩

theorem SizeSetting.eq_of_asksFor {byDefault : Nat} (h : SizeSetting byDefault s size log)
    (hn : AsksFor s n) : size = n ∧ log = [] := by
  obtain ⟨hpos, text, rfl, hdenotes⟩ := hn
  cases h with
  | given h _ => exact ⟨Int.ofNat.inj (h.unique hdenotes), rfl⟩
  | notPositive h hle =>
    have hn := h.unique hdenotes
    omega
  | noNumber h => exact absurd hdenotes (h n)

theorem SizeSetting.eq_of_not_asksFor {byDefault : Nat} (h : SizeSetting byDefault s size log)
    (hn : ∀ n, ¬ AsksFor s n) :
    size = byDefault ∧
      (s = none ∧ log = [] ∨ s ≠ none ∧ ∃ m, log = [m] ∧ m.severity = .warning) := by
  cases h with
  | unset => exact ⟨rfl, .inl ⟨rfl, rfl⟩⟩
  | given h hpos => exact absurd ⟨hpos, _, rfl, h⟩ (hn _)
  | notPositive h hle => exact ⟨rfl, .inr ⟨Option.some_ne_none _, unusableSize, rfl, rfl⟩⟩
  | noNumber h => exact ⟨rfl, .inr ⟨Option.some_ne_none _, invalidSize, rfl, rfl⟩⟩

theorem SizeSetting.warns {byDefault : Nat} (h : SizeSetting byDefault s size log) :
    (log = [] ∨ ∃ m, log = [m] ∧ m.severity = .warning) ∧
      (log ≠ [] ↔ s ≠ none ∧ ∀ n, ¬ AsksFor s n) := by
  by_cases hn : ∃ n, AsksFor s n
  · obtain ⟨n, hn⟩ := hn
    have hlog := (h.eq_of_asksFor hn).2
    exact ⟨.inl hlog, iff_of_false (fun hne ↦ hne hlog) fun hne ↦ hne.2 n hn⟩
  · have hn := not_exists.1 hn
    obtain ⟨hnone, hlog⟩ | ⟨hsome, m, hlog, hm⟩ := (h.eq_of_not_asksFor hn).2
    · exact ⟨.inl hlog, iff_of_false (fun hne ↦ hne hlog) fun hne ↦ hne.1 hnone⟩
    · exact ⟨.inr ⟨m, hlog, hm⟩, iff_of_true (by simp [hlog]) ⟨hsome, hn⟩⟩

theorem exists_config_eq (env : Environment) : ∃ base : ScanConfig,
    base.manifestEnabled = flag true env.swiftEnabled ∧
      base.lockEnabled = flag true env.resolvedEnabled ∧ base.ignorePatterns = [] ∧
      base.maxMegabytes = 5 ∧ config env = applySize base env.maxFileSize := by
  have hpos : 0 < 5 := by decide
  refine ⟨⟨flag true env.swiftEnabled, flag true env.resolvedEnabled, 5, [], hpos⟩,
    ?_, ?_, rfl, rfl, rfl⟩
  · dsimp only
  · dsimp only

theorem config_flags (env : Environment) :
    (config env).1.manifestEnabled = flag true env.swiftEnabled ∧
      (config env).1.lockEnabled = flag true env.resolvedEnabled ∧
      (config env).1.ignorePatterns = [] := by
  obtain ⟨base, hmanifest, hlock, hpatterns, -, heq⟩ := exists_config_eq env
  rw [heq, ← hmanifest, ← hlock, ← hpatterns]
  exact applySize_keeps base env.maxFileSize

theorem config_size (env : Environment) :
    SizeSetting 5 env.maxFileSize (config env).1.maxMegabytes (config env).2 := by
  obtain ⟨base, -, -, -, hsize, heq⟩ := exists_config_eq env
  rw [heq, ← hsize]
  exact sizeSetting_applySize base env.maxFileSize

/-- Whatever the environment holds, there is a configuration. The size limit is the positive whole
number that is asked for, or else five, and there is one warning if something else is asked for and
no message otherwise. Each kind of file is left out only if its variable has a text that is not
blank and does not mean yes. No setting depends on the variable of another one. -/
theorem config_settled (env : Environment) :
    0 < (config env).1.maxMegabytes ∧
    (∀ n, AsksFor env.maxFileSize n → (config env).1.maxMegabytes = n) ∧
    ((∀ n, ¬ AsksFor env.maxFileSize n) → (config env).1.maxMegabytes = 5) ∧
    ((config env).2 = [] ∨ ∃ m, (config env).2 = [m] ∧ m.severity = .warning) ∧
    ((config env).2 ≠ [] ↔ env.maxFileSize ≠ none ∧ ∀ n, ¬ AsksFor env.maxFileSize n) ∧
    ((config env).1.manifestEnabled = true ↔ MeansYes env.swiftEnabled) ∧
    ((config env).1.lockEnabled = true ↔ MeansYes env.resolvedEnabled) ∧
    (config env).1.ignorePatterns = [] ∧
    ∀ env' : Environment,
      (env'.swiftEnabled = env.swiftEnabled →
        (config env').1.manifestEnabled = (config env).1.manifestEnabled) ∧
      (env'.resolvedEnabled = env.resolvedEnabled →
        (config env').1.lockEnabled = (config env).1.lockEnabled) ∧
      (env'.maxFileSize = env.maxFileSize →
        (config env').1.maxMegabytes = (config env).1.maxMegabytes ∧
          (config env').2 = (config env).2) := by
  obtain ⟨hmanifest, hlock, hpatterns⟩ := config_flags env
  have hsize := config_size env
  refine ⟨(config env).1.maxMegabytes_pos, fun n hn ↦ (hsize.eq_of_asksFor hn).1,
    fun hn ↦ (hsize.eq_of_not_asksFor hn).1, hsize.warns.1, hsize.warns.2, ?_, ?_, hpatterns, ?_⟩
  · rw [hmanifest, flag_iff]
  · rw [hlock, flag_iff]
  · intro env'
    obtain ⟨hmanifest', hlock', -⟩ := config_flags env'
    refine ⟨fun h ↦ ?_, fun h ↦ ?_, fun h ↦ ?_⟩
    · rw [hmanifest, hmanifest', h]
    · rw [hlock, hlock', h]
    · exact hsize.unique (h ▸ config_size env')

example : MeansYes (some " TRUE ") ∧ MeansYes (some "\t") ∧ ¬ MeansYes (some "y") := by
  decide +kernel

end SwiftInventory.Environment
