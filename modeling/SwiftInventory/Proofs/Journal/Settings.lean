import SwiftInventory.Journal.File

namespace SwiftInventory

/-- A logger without its place in the tree. -/
def Logger.settings (l : Logger) : Logger := { l with above := "root" }

namespace Journal

variable {j : Journal} {name other : String} {level : Int}

theorem lookup_map {f : String × Option Logger → String × Option Logger} (hf : ∀ e, (f e).1 = e.1)
    (names : List (String × Option Logger)) (name : String) :
    (names.map f).lookup name = (names.lookup name).map fun l? ↦ (f (name, l?)).2 := by
  induction names with
  | nil => rfl
  | cons e names ih =>
    obtain ⟨key, l?⟩ := e
    have hkey : f (key, l?) = (key, (f (key, l?)).2) := Prod.ext (hf _) rfl
    rw [List.map_cons, hkey, List.lookup_cons, List.lookup_cons]
    cases h : name == key with
    | true => rw [eq_of_beq h]; rfl
    | false => exact ih

theorem any_name (names : List (String × Option Logger)) (name : String) :
    names.any (·.1 == name) = (names.lookup name).isSome := by
  induction names with
  | nil => rfl
  | cons e names ih =>
    rw [List.any_cons, List.lookup_cons, ih, BEq.comm]
    cases name == e.1 <;> rfl

theorem lookup_setName (names : List (String × Option Logger)) (l : Logger) :
    (setName names name l).lookup other =
      if other = name then some (some l) else names.lookup other := by
  have hkey : ∀ e : String × Option Logger,
      (if e.1 == name then (name, some l) else e).1 = e.1 := by
    intro e
    split
    · rename_i h
      exact (eq_of_beq h).symm
    · rfl
  rw [setName, any_name]
  by_cases h : other = name
  · subst other
    cases hname : names.lookup name with
    | some l? =>
      rw [Option.isSome_some, if_pos rfl, lookup_map hkey, hname]
      simp
    | none => simp [List.lookup_append, hname]
  · have hbeq : (other == name) = false := beq_eq_false_iff_ne.2 h
    split
    · rw [lookup_map hkey]
      cases names.lookup other <;> simp [h]
    · simp [List.lookup_append, List.lookup_cons, hbeq]

theorem lookup_addAncestors (names : List (String × Option Logger)) (above : List String)
    (name : String) : ((addAncestors names above).lookup name).join = (names.lookup name).join := by
  fun_induction addAncestors names above with
  | case1 => rfl
  | case2 => rfl
  | case3 names other rest h ih => exact ih
  | case4 names other rest h ih =>
    rw [ih, List.lookup_append]
    cases names.lookup name with
    | none =>
      rw [List.lookup_cons]
      cases name == other <;> rfl
    | some l? => rfl

theorem adopt_fst (name : String) (e : String × Option Logger) : (adopt name e).1 = e.1 := by
  fun_cases adopt name e <;> rfl

theorem adopt_settings (name : String) (e : String × Option Logger) :
    (adopt name e).2.map Logger.settings = e.2.map Logger.settings := by
  fun_cases adopt name e <;> rfl

/-- What a logger of the name is set to, if there is one. -/
def settings? (j : Journal) (name : String) : Option Logger := (j.find? name).map Logger.settings

theorem find?_of_not_isRoot (h : isRoot name = false) :
    j.find? name = (j.names.lookup name).join := by
  simp [find?, h]

theorem settings?_of_names_eq {k : Journal} (h : isRoot name = false) (hnames : k.names = j.names) :
    k.settings? name = j.settings? name := by
  rw [settings?, settings?, find?_of_not_isRoot h, find?_of_not_isRoot h, hnames]

theorem settings?_update_of_ne (f : Logger → Logger) (hroot : isRoot name = false)
    (h : name ≠ other) : (j.update other f).settings? name = j.settings? name := by
  rw [update]
  split
  · exact settings?_of_names_eq hroot rfl
  · rw [settings?, settings?, find?_of_not_isRoot hroot]
    split
    · rw [find?_of_not_isRoot hroot, lookup_setName, if_neg h]
    · dsimp only
      rw [find?_of_not_isRoot hroot, lookup_addAncestors, lookup_setName, if_neg h,
        lookup_map (adopt_fst other)]
      cases j.names.lookup name with
      | none => rfl
      | some l? => exact adopt_settings other (name, l?)

theorem find?_update_self (f : Logger → Logger) (hroot : isRoot name = false) :
    ∃ above, (j.update name f).find? name =
      some (f ((j.find? name).getD { above := above })) := by
  refine ⟨j.nearestAbove name, ?_⟩
  rw [update, hroot]
  simp only [Bool.false_eq_true, if_false]
  cases hfind : j.find? name with
  | some l =>
    dsimp only
    rw [find?_of_not_isRoot hroot, lookup_setName, if_pos rfl]
    rfl
  | none =>
    dsimp only
    rw [find?_of_not_isRoot hroot, lookup_addAncestors, lookup_setName, if_pos rfl]
    rfl

/-- A logger of the name writes each message itself, once, from this level on. -/
def Keeps (j : Journal) (name : String) (level : Int) : Prop :=
  j.settings? name = some { level := level, handlers := 1, propagate := false }

theorem Keeps.of_names_eq {k : Journal} (h : j.Keeps name level) (hroot : isRoot name = false)
    (hnames : k.names = j.names) : k.Keeps name level :=
  (settings?_of_names_eq hroot hnames).trans h

theorem Keeps.exists_logger (h : j.Keeps name level) :
    ∃ above, j.find? name = some ⟨level, 1, false, above⟩ := by
  obtain ⟨l, hl, hset⟩ := Option.map_eq_some_iff.1 h
  rw [Logger.settings, Logger.mk.injEq] at hset
  obtain ⟨rfl, hhandlers, hpropagate, -⟩ := hset
  refine ⟨l.above, ?_⟩
  rw [hl, ← hhandlers, ← hpropagate]

theorem Keeps.emit (h : j.Keeps name level) (hlevel : level ≠ 0) (hroot : isRoot name = false)
    (m : Message) :
    j.emit name m =
      if level ≤ m.severity.rank then [⟨m.severity, name ++ ": " ++ m.text⟩] else [] := by
  obtain ⟨above, hfind⟩ := h.exists_logger
  have heffective : j.effectiveLevel name = level := by
    simp [effectiveLevel, levelFrom, hfind, hlevel]
  have honce : j.handlersReached name = 1 := by simp [handlersReached, handlersFrom, hfind]
  rw [Journal.emit, heffective, honce, hroot]
  rfl

theorem keeps_wrap_self (hroot : isRoot name = false) : (j.wrap name level).Keeps name level := by
  have hkeeps : (j.update name (Logger.asOwn level)).Keeps name level := by
    obtain ⟨above, h⟩ := find?_update_self (j := j) (Logger.asOwn level) hroot
    rw [Keeps, settings?, h]
    rfl
  exact hkeeps.of_names_eq hroot rfl

theorem Keeps.update_of_ne (h : j.Keeps name level) (hroot : isRoot name = false)
    (hne : name ≠ other) (f : Logger → Logger) : (j.update other f).Keeps name level :=
  (settings?_update_of_ne f hroot hne).trans h

theorem Keeps.wrap_of_ne (h : j.Keeps name level) (hroot : isRoot name = false)
    (hne : name ≠ other) (new : Int) : (j.wrap other new).Keeps name level :=
  (h.update_of_ne hroot hne (Logger.asOwn new)).of_names_eq hroot rfl

theorem Keeps.atLevel_self (h : j.Keeps name level) (hroot : isRoot name = false) (new : Int) :
    (j.update name (Logger.atLevel new)).Keeps name new := by
  obtain ⟨above, hfind⟩ := h.exists_logger
  obtain ⟨above', h⟩ := find?_update_self (j := j) (Logger.atLevel new) hroot
  rw [Keeps, settings?, h, hfind]
  rfl

theorem Keeps.foldl_atLevel (h : j.Keeps name level) (hroot : isRoot name = false)
    (new : Int) (own : List String) :
    (own.foldl (fun j name ↦ j.update name (Logger.atLevel new)) j).Keeps name
      (if name ∈ own then new else level) := by
  induction own generalizing j level with
  | nil => exact h
  | cons other own ih =>
    rw [List.foldl_cons]
    by_cases hother : name = other
    · subst other
      have hnew := ih (h.atLevel_self hroot new)
      rw [ite_self] at hnew
      rw [if_pos List.mem_cons_self]
      exact hnew
    · simp only [List.mem_cons, hother, false_or]
      exact ih (h.update_of_ne hroot hother (Logger.atLevel new))

theorem not_isRoot (own : programPrefix.toList <+: name.toList) : isRoot name = false := by
  cases hroot : isRoot name with
  | false => rfl
  | true =>
    rw [isRoot, Bool.or_eq_true] at hroot
    cases hroot with
    | inl h =>
      rw [String.isEmpty_iff.1 h] at own
      exact absurd own (by decide)
    | inr h =>
      rw [eq_of_beq h] at own
      exact absurd own (by decide)

theorem Keeps.mem_ownNames (h : j.Keeps name level) (own : programPrefix.toList <+: name.toList) :
    name ∈ j.ownNames := by
  obtain ⟨above, hfind⟩ := h.exists_logger
  rw [find?_of_not_isRoot (not_isRoot own), Option.join_eq_some_iff] at hfind
  obtain ⟨before, rest, hnames, -⟩ := List.lookup_eq_some_iff.1 hfind
  apply List.mem_filter.2
  constructor
  · rw [hnames]
    simp
  · exact List.isPrefixOf_iff_prefix.2 own

theorem Keeps.setup (h : j.Keeps name level) (own : programPrefix.toList <+: name.toList)
    (given : Int) (verbose withFile : Bool) :
    (j.setup given verbose withFile).Keeps name (if verbose then verboseLevel else given) := by
  have hroot := not_isRoot own
  rw [Journal.setup]
  generalize (if verbose then verboseLevel else given) = new
  dsimp only
  generalize hk : (if j.root.handlers == 0 then _ else j) = k
  have hkeeps : k.Keeps name level := by
    rw [← hk]
    split
    · exact h.of_names_eq hroot rfl
    · exact h
  have hnew := hkeeps.foldl_atLevel hroot new k.ownNames
  rw [if_pos (hkeeps.mem_ownNames own)] at hnew
  exact hnew

end Journal

end SwiftInventory
