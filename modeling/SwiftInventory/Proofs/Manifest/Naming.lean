import SwiftInventory.Proofs.Manifest.Arguments
import SwiftInventory.Proofs.Manifest.Extraction
import SwiftInventory.Proofs.Manifest.Overlap
import SwiftInventory.Proofs.QuotedField

namespace SwiftInventory.Manifest

open Text

/-- A manifest that declares its name first. What stands in front of the declaration holds no other
one and does not end inside a word. -/
structure NamedText where
  before : List Char
  edge : AtWordEdge before
  undeclared : ∀ u v, before = u ++ v → ¬ DeclaresAt u v
  declaration : Declaration
  afterParenthesis : Run isBlank
  opening : Field.Opening
  name : List Char
  no_quote : '"' ∉ name
  name_open : ')' ∉ name
  not_blank : ∃ c ∈ name, isBlank c = false
  rest : List Char
  rest_open : ')' ∉ rest
  after : List Char

namespace NamedText

variable (m : NamedText)

def arguments : List Char := m.opening.text "name".toList ++ (m.name ++ '"' :: m.rest)

def text : List Char :=
  m.before ++ (m.declaration.text ++ ((m.afterParenthesis.chars ++ m.arguments) ++ ')' :: m.after))

def declared : String := String.ofList (trim m.name)

theorem declared_ne_empty : m.declared.isEmpty = false := by
  obtain ⟨c, hc, hblank⟩ := m.not_blank
  have hne : trim m.name ≠ [] := fun h ↦ by simp [trim_eq_nil.1 h c hc] at hblank
  simpa [declared] using hne

theorem isFirst_declaration (t : List Char) :
    IsFirst DeclaresAt m.before (m.declaration.text ++ t) := by
  refine ⟨⟨m.edge, m.declaration, t, rfl⟩, ?_⟩
  rintro before' _ he ⟨hedge, d', inside, rfl⟩
  rcases List.append_eq_append_iff.1 he with ⟨x, hx, ht⟩ | ⟨x, hx, -⟩
  · by_contra hne
    have hx' : x ≠ [] := fun h ↦ hne (by simp [hx, h])
    have hedge' : AtWordEdge x := (hx ▸ m.edge).of_append
    -- A declaration that began further to the left is over where this one begins.
    obtain ⟨z, rfl⟩ := m.declaration.exists_eq_text_append ht.symm hx' hedge'
    exact m.undeclared before' (d'.text ++ z) hx ⟨hedge, d', z, rfl⟩
  · exact ⟨x, hx.symm⟩

theorem front_open : ')' ∉ m.afterParenthesis.chars ++ m.arguments := by
  have hblank (r : Run isBlank) : ')' ∉ r.chars := not_mem_of_run (by decide) r
  simp [arguments, Field.Opening.text, hblank, m.name_open, m.rest_open]

theorem description?_text : description? m.text = some m.arguments := by
  refine description?_eq_some.2 ⟨m.before, m.declaration, _, m.after, rfl,
    m.isFirst_declaration _, m.front_open, ?_⟩
  have hhead : m.arguments.head? = some 'n' := rfl
  exact (dropWhile_exact m.afterParenthesis.all (by simp [hhead]; decide)).symm

theorem declaredName_arguments : declaredName m.arguments = m.declared := by
  have hfirst : IsFirst (Field.OpensAt "name".toList) [] m.arguments :=
    ⟨⟨m.opening, _, rfl⟩, fun _ _ _ _ ↦ List.nil_prefix⟩
  exact congrArg String.ofList
    (Field.read_of_first hfirst m.no_quote (.inr ⟨m.rest, rfl⟩))

end NamedText

variable (current : Location) (r : Record)

/-- A name that stands first among the arguments is read back, whatever stands around it. It names
the record, is noted twice as evidence, and goes into the identifier. -/
theorem named_text_read_back (m : NamedText) :
    ((∃ r' found, extract current r (String.ofList m.text) = (r', .ok found)) ↔
      ¬ (IsSlashes (trim m.name) ∧
        ∀ v ∈ nonEmpty? r.version, PackageUrl.isCoordinate v.toList = true)) ∧
    ∀ r' found, extract current r (String.ofList m.text) = (r', .ok found) →
      r'.name = some m.declared ∧
      r'.evidence = r.evidence ++
        [⟨.product, "Package.swift", "name", m.declared, .highest⟩,
          ⟨.vendor, "Package.swift", "name_project", m.declared, .highest⟩] ∧
      r'.displayName = some (match nonEmpty? r.version with
        | some version => m.declared ++ ":" ++ version
        | none => m.declared) ∧
      (∃ i ∈ r'.identifiers, Identifier.ofCoordinates (some "swift") (some m.declared)
        (nonEmpty? r.version) .highest = .ok i) ∧
      found.declared = true ∧ found.namedAfterFolder = false ∧ found.listed = true := by
  have hd : description? (String.ofList m.text).toList = some m.arguments := by
    rw [String.toList_ofList, m.description?_text]
  have hne : m.arguments ≠ [] := by simp [NamedText.arguments, Field.Opening.text]
  have hname : declaredName m.arguments = m.declared := m.declaredName_arguments
  have hpackage : packageName current r.actualFile m.arguments = m.declared := by
    rw [packageName_of_declared (hname ▸ m.declared_ne_empty), hname]
  refine ⟨?_, fun r' found h ↦ ?_⟩
  · rw [extract_returns hd hne, hname, NamedText.declared, String.toList_ofList]
  · rw [extract_of_arguments hd hne, hpackage, hname, m.declared_ne_empty] at h
    split at h
    · cases h
    · rename_i i hi
      obtain ⟨rfl, hfound⟩ := Prod.mk.inj h
      obtain rfl := Except.ok.inj hfound
      refine ⟨?_, ?_, ?_, ⟨i, Record.mem_addIdentifier _ i, hi⟩, rfl, rfl, rfl⟩
      · simp [Record.addIdentifier_eq, named, hpackage]
      · simp [Record.addIdentifier_eq, named, hname, nameEvidence, m.declared_ne_empty, fileName]
      · simp only [Record.addIdentifier_eq, named, hpackage]
        rfl

/-- Only the second declaration counts: before the first keyword stands a letter. -/
def crowdedText : NamedText where
  before := "// outlet x = Package(\n".toList
  edge := by decide
  undeclared := findDeclaration?_eq_none.1 (by decide +kernel)
  declaration := {
    afterLet := .of isBlank " \n" (by decide)
    afterLet_ne_nil := by decide
    name := .of isWord "let_é" (by decide +kernel)
    name_ne_nil := by decide
    typeName := some ⟨.of isBlank "" rfl, .of isBlank "\t" (by decide),
      .of isTypeNameChar "A.Package" (by decide), by decide⟩
    beforeEquals := .of isBlank "\u2003" (by decide)
    afterEquals := .of isBlank "" rfl
    afterPackage := .of isBlank " " (by decide) }
  afterParenthesis := .of isBlank "\n  " (by decide)
  opening := ⟨.of isBlank " " (by decide), .of isBlank "" rfl⟩
  name := " Gloss: name ".toList
  no_quote := by decide
  name_open := by decide
  not_blank := ⟨'G', by decide, by decide⟩
  rest := ", name: \"Other\"".toList
  rest_open := by decide
  after := ") let b = Package(name: \"B\")".toList

def versionedRecord : Record :=
  { Record.ofFile (.ofString "Package.swift") false with version := some "1.0" }

theorem crowded_text_read_back : ∃ r' found,
    extract [] versionedRecord (String.ofList crowdedText.text) = (r', .ok found) ∧
    r'.name = some "Gloss: name" ∧ r'.evidence.length = 2 ∧
    r'.displayName = some "Gloss: name:1.0" ∧ found.listed = true := by
  obtain ⟨r', found, h⟩ := (named_text_read_back [] versionedRecord crowdedText).1.2 (by decide)
  obtain ⟨hname, hevidence, hdisplay, -, -, -, hlisted⟩ :=
    (named_text_read_back [] versionedRecord crowdedText).2 r' found h
  have hdeclared : crowdedText.declared = "Gloss: name" := by decide
  rw [hdeclared] at hname hdisplay
  exact ⟨r', found, h, hname, by rw [hevidence]; rfl, hdisplay, hlisted⟩

/-- The record took its name from the text. A fault ends the reading only after that. -/
def SetsDeclaredName : Except SlashesOnly Findings → Prop
  | .ok found => found.listed = true ∧ found.namedAfterFolder = false
  | .error _ => True

instance : DecidablePred SetsDeclaredName
  | .ok _ => inferInstanceAs (Decidable (_ ∧ _))
  | .error _ => inferInstanceAs (Decidable True)

variable {current : Location} {r : Record} {contents : String}

theorem name_of_setsDeclaredName (h : SetsDeclaredName (extract current r contents).2) :
    ∃ arguments, description? contents.toList = some arguments ∧
      (declaredName arguments).isEmpty = false ∧
      (extract current r contents).1.name = some (declaredName arguments) := by
  cases hd : description? contents.toList with
  | none => simp [extract_of_none hd, SetsDeclaredName] at h
  | some arguments =>
    by_cases hne : arguments = []
    · rw [hne] at hd
      simp [extract_of_blank hd, SetsDeclaredName] at h
    · have hname : (declaredName arguments).isEmpty = false := by
        cases hx : (extract current r contents).2 with
        | error e =>
          simpa using ((extract_eq_error_of_arguments hd hne).1 hx).2.1.1
        | ok found =>
          rw [hx] at h
          rw [extract_of_arguments hd hne] at hx
          split at hx
          · cases hx
          · rw [← Except.ok.inj hx] at h
            exact h.2
      refine ⟨arguments, rfl, hname, ?_⟩
      have hpackage : packageName current r.actualFile arguments = declaredName arguments :=
        packageName_of_declared hname
      rw [extract_of_arguments hd hne]
      split <;> simp [Record.addIdentifier_eq, named, hpackage]

/-- A manifest cut up around a name: what stands between the parentheses goes from the blanks in
front of the arguments to what is left of them behind the value. -/
structure NameInText where
  before : List Char
  declaration : Declaration
  gap : Run isBlank
  lead : List Char
  opening : Field.Opening
  value : List Char
  rest : List Char
  after : List Char

namespace NameInText

variable (n : NameInText)

def field : List Char := n.opening.text "name".toList ++ (n.value ++ n.rest)

def fromDeclaration : List Char :=
  n.declaration.text ++ ((n.gap.chars ++ (n.lead ++ n.field)) ++ ')' :: n.after)

def text : List Char := n.before ++ n.fromDeclaration

end NameInText

/-- A name that was taken from a text stands in the arguments of its first declaration, which end
at the first closing parenthesis: it is the text behind the first `name`, colon and quote, whole
word or not, up to the next quote if there is one and up to the parenthesis if not. -/
theorem declared_name_in_text (h : SetsDeclaredName (extract current r contents).2) :
    ∃ n : NameInText, contents.toList = n.text ∧
      IsFirst DeclaresAt n.before n.fromDeclaration ∧
      IsFirst (Field.OpensAt "name".toList) n.lead n.field ∧
      ')' ∉ n.lead ++ n.field ∧ '"' ∉ n.value ∧
      (n.rest = [] ∨ ∃ more, n.rest = '"' :: more) ∧
      trim n.value ≠ [] ∧
      (extract current r contents).1.name = some (String.ofList (trim n.value)) := by
  obtain ⟨arguments, hd, hne, hname⟩ := name_of_setsDeclaredName h
  obtain ⟨before, d, front, after, htext, hfirst, hopen, rfl⟩ := description?_eq_some.1 hd
  have hread : Field.read "name".toList (trimStart front) ≠ [] := by simpa [declaredName] using hne
  obtain ⟨lead, o, value, rest, hfield, hlead, hquote, hends, hvalue⟩ :=
    Field.exists_first_of_read_ne_nil hread
  have hfront : front = front.takeWhile isBlank ++
      (lead ++ (o.text "name".toList ++ (value ++ rest))) := by
    rw [← hfield, trimStart, List.takeWhile_append_dropWhile]
  have hgap : ∀ c ∈ front.takeWhile isBlank, isBlank c = true := fun _ ↦ List.mem_takeWhile_imp
  refine ⟨⟨before, d, ⟨front.takeWhile isBlank, hgap⟩, lead, o, value, rest, after⟩,
    ?_, ?_, hlead, ?_, hquote, hends, ?_, ?_⟩
  · rw [htext]
    conv_lhs => rw [hfront]
    rfl
  · rw [hfront] at hfirst
    exact hfirst
  · exact fun hmem ↦ hopen (by rw [hfront]; exact List.mem_append_right _ hmem)
  · rwa [← hvalue]
  · rw [hname, declaredName, hvalue]

def mislabelledText : String := "let package = Package(filename: \" a)b\")"

theorem mislabelled_name_in_text : ∃ n : NameInText, mislabelledText.toList = n.text ∧
    ')' ∉ n.value ++ n.rest ∧ trim n.value = ['a'] := by
  have hset : SetsDeclaredName (extract [] versionedRecord mislabelledText).2 := by decide +kernel
  obtain ⟨n, htext, -, -, hopen, -, -, -, hname⟩ := declared_name_in_text hset
  refine ⟨n, htext, fun h ↦ hopen (by simp [NameInText.field, List.mem_append.1 h]), ?_⟩
  have hread : (extract [] versionedRecord mislabelledText).1.name = some "a" := by decide +kernel
  rw [hread] at hname
  simpa using congrArg (Option.map String.toList) hname.symm

/-- Behind a declaration and the whole word `name` stands a complete literal with that name. -/
def HasWholeName (text : List Char) (name : String) : Prop :=
  ∃ before, ∃ d : Declaration, ∃ lead, ∃ o : Field.Opening, ∃ value rest,
    text = before ++ (d.text ++ (lead ++ (o.text "name".toList ++ (value ++ '"' :: rest)))) ∧
    AtWordEdge (before ++ (d.text ++ lead)) ∧ '"' ∉ value ∧ String.ofList (trim value) = name

theorem HasWholeName.exists_place {text : List Char} {name : String} (h : HasWholeName text name) :
    ∃ n ≤ text.length, AtWordEdge (text.take n) ∧
      ∃ rest ∈ Field.valueAt? "name".toList (text.drop n),
        String.ofList (trim (rest.takeWhile (· != '"'))) = name := by
  obtain ⟨before, d, lead, o, value, rest, rfl, hedge, hquote, hname⟩ := h
  have hcut : before ++ (d.text ++ (lead ++ (o.text "name".toList ++ (value ++ '"' :: rest)))) =
      (before ++ (d.text ++ lead)) ++ (o.text "name".toList ++ (value ++ '"' :: rest)) := by simp
  rw [hcut]
  refine ⟨(before ++ (d.text ++ lead)).length, by simp, by rwa [List.take_left],
    value ++ '"' :: rest, ?_, ?_⟩
  · rw [List.drop_left]
    exact Field.valueAt?_eq_some.2 ⟨o, rfl⟩
  · rwa [Field.takeWhile_quote hquote (.inr ⟨rest, rfl⟩)]

def cutText : String := "let package = Package(name: \"a)b\")"

def misreadText : String := "let package = Package(filename: \"x\")"

/-- A name with a parenthesis in it is cut short, and the end of a longer word counts as `name`. -/
theorem names_cut_and_misread :
    (SetsDeclaredName (extract [] versionedRecord cutText).2 ∧
      (extract [] versionedRecord cutText).1.name = some "a" ∧
      ¬ HasWholeName cutText.toList "a") ∧
    (SetsDeclaredName (extract [] versionedRecord misreadText).2 ∧
      (extract [] versionedRecord misreadText).1.name = some "x" ∧
      ¬ HasWholeName misreadText.toList "x") := by
  refine ⟨⟨by decide +kernel, by decide +kernel, fun h ↦ ?_⟩,
    ⟨by decide +kernel, by decide +kernel, fun h ↦ ?_⟩⟩
  · exact absurd h.exists_place (by decide +kernel)
  · exact absurd h.exists_place (by decide +kernel)

end SwiftInventory.Manifest
