import SwiftInventory.Analyzer
import SwiftInventory.Proofs.Discovery.Below
import SwiftInventory.Proofs.Discovery.Ignoring
import SwiftInventory.Proofs.LineEnds
import SwiftInventory.Proofs.Utf8.Reading

namespace SwiftInventory

open Text Utf8

namespace FileTree

variable {t : FileTree} {config : ScanConfig} {p : Path} {l : Location} {octets : List UInt8}

/-- On the way from a location, a folder is asked for a name that is too long. -/
inductive MeetsLongName (t : FileTree) : Location → List Path.Part → Prop
  | here {l : Location} {part : Path.Part} {rest : List Path.Part} :
      t.entryAt? l = some .folder → part.isBack = false → part.isTooLong = true →
        MeetsLongName t l (part :: rest)
  | later {l l' : Location} {part : Path.Part} {rest : List Path.Part} :
      t.step l part = .ok l' → MeetsLongName t l' rest → MeetsLongName t l (part :: rest)

def OutOfReach (t : FileTree) (p : Path) : Prop :=
  p.holdsNull = false ∧ (p.isTooLong = true ∨ t.MeetsLongName (t.start p) p.parts)

theorem step_eq_tooLong {part : Path.Part} :
    t.step l part = .error .tooLong ↔
      t.entryAt? l = some .folder ∧ part.isBack = false ∧ part.isTooLong = true := by
  rw [step]
  split <;> rename_i h <;> rw [h]
  · simp
  · simp
  · cases part.isBack <;> cases part.isTooLong <;> simp

theorem steps_eq_tooLong {parts : List Path.Part} :
    parts.foldlM t.step l = .error .tooLong ↔ t.MeetsLongName l parts := by
  induction parts generalizing l with
  | nil => exact ⟨nofun, nofun⟩
  | cons part rest ih =>
    rw [List.foldlM_cons]
    cases hs : t.step l part with
    | error fault =>
      constructor
      · intro h
        obtain rfl : fault = .tooLong := Except.error.inj h
        obtain ⟨hfolder, hback, hlong⟩ := step_eq_tooLong.1 hs
        exact .here hfolder hback hlong
      · intro h
        cases h with
        | here hfolder hback hlong =>
          exact hs.symm.trans (step_eq_tooLong.2 ⟨hfolder, hback, hlong⟩)
        | later hok _ => cases hs.symm.trans hok
    | ok l' =>
      refine (ih (l := l')).trans ⟨.later hs, fun h ↦ ?_⟩
      cases h with
      | here hfolder hback hlong => cases hs.symm.trans (step_eq_tooLong.2 ⟨hfolder, hback, hlong⟩)
      | later hok hrest =>
        cases hs.symm.trans hok
        exact hrest

theorem locate_eq_tooLong : t.locate p = .error .tooLong ↔ t.OutOfReach p := by
  rw [locate, OutOfReach]
  cases p.holdsNull with
  | true => simp
  | false =>
    cases p.isTooLong with
    | true => simp
    | false => simpa using steps_eq_tooLong

theorem contents_of_outOfReach (h : t.OutOfReach p) :
    t.contents config p = .error (.pathTooLong ⟨p⟩) := by
  rw [contents, read?, find?, locate_eq_tooLong.2 h]
  rfl

theorem contents_of_forbidden (h : t.Holds p [] (.file octets)) (hread : t.isReadable p = false) :
    t.contents config p = .error (.unreadable ⟨p, .forbidden⟩) := by
  rw [contents, read?, find?_eq_some_iff.2 h]
  exact if_neg (by simp [hread])

theorem contents_of_file (h : t.Holds p [] (.file octets)) (hread : t.isReadable p = true) :
    t.contents config p = (textOf config p octets).mapError .unreadable := by
  rw [contents, read?, find?_eq_some_iff.2 h]
  exact if_pos hread

theorem contents_of_no_file (hreach : ¬ t.OutOfReach p)
    (h : ∀ octets, ¬ t.Holds p [] (.file octets)) :
    t.contents config p = .error (.unreadable ⟨p, .missing⟩) := by
  have hread : t.read? p = .ok none := by
    rw [read?]
    cases hf : t.find? p with
    | error e =>
      rw [find?] at hf
      split at hf
      · cases hf
      · exact absurd (locate_eq_tooLong.1 ‹_›) hreach
      · cases hf
    | ok entry =>
      cases entry with
      | none => rfl
      | some entry =>
        cases entry with
        | folder => rfl
        | file octets => exact absurd (find?_eq_some_iff.1 hf) (h octets)
  rw [contents, hread]

end FileTree

section Octets

variable {config : ScanConfig} {p : Path} {octets : List UInt8} {text : String}

theorem textOf_of_tooLarge (h : config.maxOctets < octets.length) :
    textOf config p octets = .error ⟨p, .tooLarge octets.length config.maxOctets⟩ := by
  rw [textOf, if_pos h]

theorem textOf_of_fault {fault : Fault} (hsize : octets.length ≤ config.maxOctets)
    (h : decode octets = .error fault) :
    textOf config p octets = .error ⟨p, .malformed fault⟩ := by
  rw [textOf, if_neg (Nat.not_lt.2 hsize), h]

theorem textOf_eq_ok : textOf config p octets = .ok text ↔
    octets.length ≤ config.maxOctets ∧
      ∃ s, encode s = octets ∧ text = String.ofList (unifyLineEnds s) := by
  constructor
  · intro h
    by_cases hlarge : config.maxOctets < octets.length
    · rw [textOf_of_tooLarge hlarge] at h
      cases h
    · have hsize := Nat.not_lt.1 hlarge
      refine ⟨hsize, ?_⟩
      cases hd : decode octets with
      | error fault =>
        rw [textOf_of_fault hsize hd] at h
        cases h
      | ok s =>
        rw [textOf, if_neg hlarge, hd] at h
        exact ⟨s, decode_eq_ok.1 hd, (Except.ok.inj h).symm⟩
  · rintro ⟨hsize, s, rfl, rfl⟩
    rw [textOf, if_neg (Nat.not_lt.2 hsize), decode_encode]

theorem exists_fault_of_not_isWellFormed (h : ¬ IsWellFormed octets) :
    ∃ fault, decode octets = .error fault := by
  cases hd : decode octets with
  | error fault => exact ⟨fault, rfl⟩
  | ok s => exact absurd (isWellFormed_iff.2 ⟨s, decode_eq_ok.1 hd⟩) h

/-- The error of octets that are not well-formed, with the first of the positions it names. -/
def Unreadable.NamesPosition (e : Unreadable) (position : Nat) : Prop :=
  ∃ octets rest, e.message = "Problem occurred while reading dependency file " ++
      toString e.path ++ ": 'utf-8' codec can't decode " ++ octets ++ " in position " ++
        toString position ++ rest ∧
    (octets = "bytes" ∨ ∃ digits, octets = "byte 0x" ++ digits) ∧
    (rest.toList.head? = some ':' ∨ rest.toList.head? = some '-')

theorem Unreadable.faultText_eq (fault : Fault) :
    ∃ octets rest, faultText fault = "'utf-8' codec can't decode " ++ octets ++
        " in position " ++ toString fault.position ++ rest ∧
      (octets = "bytes" ∨ ∃ digits, octets = "byte 0x" ++ digits) ∧
      (rest.toList.head? = some ':' ∨ rest.toList.head? = some '-') := by
  have hbytes : "bytes in position " = "bytes" ++ " in position " := by decide
  unfold faultText
  split
  · refine ⟨"byte 0x" ++ String.ofList (Hex.padded Hex.lower 2 fault.octet.toNat),
      ": " ++ reasonText fault.reason, ?_, .inr ⟨_, rfl⟩, .inl (by simp)⟩
    simp only [String.append_assoc]
  · refine ⟨"bytes", "-" ++ (toString (fault.position + fault.size - 1) ++
      (": " ++ reasonText fault.reason)), ?_, .inl rfl, .inr (by simp)⟩
    simp only [String.append_assoc, hbytes]

theorem Unreadable.namesPosition_malformed (p : Path) (fault : Fault) :
    NamesPosition ⟨p, .malformed fault⟩ fault.position := by
  obtain ⟨octets, rest, htext, hoctets, hrest⟩ := faultText_eq fault
  have hfront : ": 'utf-8' codec can't decode " = ": " ++ "'utf-8' codec can't decode " := by
    decide
  refine ⟨octets, rest, ?_, hoctets, hrest⟩
  simp only [message, htext, hfront, String.append_assoc]

end Octets

namespace FileTree

variable {t : FileTree} {config : ScanConfig} {p : Path} {text : String}

theorem contents_eq_ok : t.contents config p = .ok text ↔
    ∃ s, t.Holds p [] (.file (encode s)) ∧ t.isReadable p = true ∧
      (encode s).length ≤ config.maxOctets ∧ text = String.ofList (unifyLineEnds s) := by
  constructor
  · intro h
    by_cases hreach : t.OutOfReach p
    · rw [contents_of_outOfReach hreach] at h
      cases h
    by_cases hfile : ∃ octets, t.Holds p [] (.file octets)
    · obtain ⟨octets, hfile⟩ := hfile
      cases hread : t.isReadable p with
      | false =>
        rw [contents_of_forbidden hfile hread] at h
        cases h
      | true =>
        rw [contents_of_file hfile hread] at h
        cases hr : textOf config p octets with
        | error e =>
          rw [hr] at h
          cases h
        | ok text' =>
          rw [hr] at h
          cases h
          obtain ⟨hsize, s, rfl, rfl⟩ := textOf_eq_ok.1 hr
          exact ⟨s, hfile, rfl, hsize, rfl⟩
    · rw [contents_of_no_file hreach (not_exists.1 hfile)] at h
      cases h
  · rintro ⟨s, hfile, hread, hsize, rfl⟩
    rw [contents_of_file hfile hread, textOf_eq_ok.2 ⟨hsize, s, rfl, rfl⟩]
    rfl

theorem contents_write {s : List Char} {e : LineEnd} (hreturn : '\r' ∉ s)
    (hfile : t.Holds p [] (.file (encode (e.write s)))) (hread : t.isReadable p = true)
    (hsize : (encode (e.write s)).length ≤ config.maxOctets) :
    t.contents config p = .ok (String.ofList s) :=
  contents_eq_ok.2 ⟨_, hfile, hread, hsize, by rw [unifyLineEnds_write e hreturn]⟩

end FileTree

/-- Of the tree, an analysis sees the working folder and one text. -/
theorem Analyzer.analyze_congr {a : Analyzer} {t t' : FileTree} {config : ScanConfig}
    {id : RecordId} {inv : Inventory} (hcurrent : t'.current = t.current)
    (htext : t'.contents config (inv.get id).actualFile =
      t.contents config (inv.get id).actualFile) :
    a.analyze t' config id inv = a.analyze t config id inv := by
  rw [analyze, analyze]
  split
  · rw [analyzeManifest, analyzeManifest, htext, hcurrent]
  · simp only [analyzeLock, htext]

/-- A file is read as a text when it may be read, is not too large and is well-formed, and then as
what it says but for the carriage returns. Otherwise an error bears its path. Paths that are too
long to be looked up stand apart: what comes of them is no such error. -/
theorem FileTree.contents_exact (t : FileTree) (config : ScanConfig) (p : Path) :
    ((∃ text, t.contents config p = .ok text) ↔ ∃ octets, t.Holds p [] (.file octets) ∧
      t.isReadable p = true ∧ octets.length ≤ config.maxOctets ∧ IsWellFormed octets) ∧
    (∀ text, t.contents config p = .ok text ↔ ∃ s, t.Holds p [] (.file (encode s)) ∧
      t.isReadable p = true ∧ (encode s).length ≤ config.maxOctets ∧
        text = String.ofList ((joinPairs s).map feedForReturn)) ∧
    (∀ text, t.contents config p = .ok text → '\r' ∉ text.toList) ∧
    (∀ (e : LineEnd) (s : List Char), '\r' ∉ s → t.Holds p [] (.file (encode (e.write s))) →
      t.isReadable p = true → (encode (e.write s)).length ≤ config.maxOctets →
      t.contents config p = .ok (String.ofList s) ∧
        ∀ (t' : FileTree) (e' : LineEnd) (a : Analyzer) (id : RecordId) (inv : Inventory),
          t'.current = t.current → (inv.get id).actualFile = p →
          t'.Holds p [] (.file (encode (e'.write s))) → t'.isReadable p = true →
          (encode (e'.write s)).length ≤ config.maxOctets →
          a.analyze t' config id inv = a.analyze t config id inv) ∧
    (t.OutOfReach p → t.contents config p = .error (.pathTooLong ⟨p⟩)) ∧
    (¬ t.OutOfReach p → (∀ octets, ¬ t.Holds p [] (.file octets)) →
      t.contents config p = .error (.unreadable ⟨p, .missing⟩)) ∧
    ∀ octets, t.Holds p [] (.file octets) →
      (t.isReadable p = false →
        t.contents config p = .error (.unreadable ⟨p, .forbidden⟩)) ∧
      (t.isReadable p = true → config.maxOctets < octets.length → t.contents config p =
        .error (.unreadable ⟨p, .tooLarge octets.length config.maxOctets⟩)) ∧
      (t.isReadable p = true → octets.length ≤ config.maxOctets → ¬ IsWellFormed octets →
        ∃ fault, t.contents config p = .error (.unreadable ⟨p, .malformed fault⟩) ∧
          Unreadable.NamesPosition ⟨p, .malformed fault⟩ fault.position ∧
          IsGreatest (wellFormedLengths octets) fault.position) := by
  refine ⟨⟨?_, ?_⟩, fun text ↦ ?_, ?_, ?_, contents_of_outOfReach, contents_of_no_file, ?_⟩
  · rintro ⟨text, h⟩
    obtain ⟨s, hfile, hread, hsize, -⟩ := contents_eq_ok.1 h
    exact ⟨_, hfile, hread, hsize, isWellFormed_iff.2 ⟨s, rfl⟩⟩
  · rintro ⟨octets, hfile, hread, hsize, hwell⟩
    obtain ⟨s, rfl⟩ := isWellFormed_iff.1 hwell
    exact ⟨_, contents_eq_ok.2 ⟨s, hfile, hread, hsize, rfl⟩⟩
  · simp only [contents_eq_ok, unifyLineEnds_eq]
  · intro text h
    obtain ⟨s, -, -, -, rfl⟩ := contents_eq_ok.1 h
    rw [String.toList_ofList]
    exact return_not_mem_unifyLineEnds
  · intro e s hreturn hfile hread hsize
    have h := contents_write hreturn hfile hread hsize
    refine ⟨h, fun t' e' a id inv hcurrent hp hfile' hread' hsize' ↦ ?_⟩
    apply Analyzer.analyze_congr hcurrent
    rw [hp, h, contents_write hreturn hfile' hread' hsize']
  · intro octets hfile
    refine ⟨contents_of_forbidden hfile, fun hread hlarge ↦ ?_, fun hread hsize hwell ↦ ?_⟩
    · rw [contents_of_file hfile hread, textOf_of_tooLarge hlarge]
      rfl
    · obtain ⟨fault, hfault⟩ := exists_fault_of_not_isWellFormed hwell
      refine ⟨fault, ?_, Unreadable.namesPosition_malformed p fault, isGreatest_position hfault⟩
      rw [contents_of_file hfile hread, textOf_of_fault hsize hfault]
      rfl

/-- Octets that no text has are not looked at where the file may not be read. -/
example : ((FileTree.empty.save (.ofString "a") [0xFF]).tree.forbid (.ofString "a")).contents {}
    (.ofString "a") = .error (.unreadable ⟨.ofString "a", .forbidden⟩) := by
  decide +kernel

def longName : Path.Part where
  text := String.ofList (List.replicate 256 'a')
  text_plain := by
    have hmem : 'a' ∈ (String.ofList (List.replicate 256 'a')).toList := by
      rw [String.toList_ofList, List.mem_replicate]
      exact ⟨by decide, rfl⟩
    refine ⟨fun h ↦ ?_, fun h ↦ ?_, fun h ↦ ?_⟩
    · rw [h] at hmem
      exact absurd hmem (by decide)
    · rw [h] at hmem
      exact absurd hmem (by decide)
    · rw [String.toList_ofList, List.mem_replicate] at h
      exact absurd h.2 (by decide)

theorem longName_chars : longName.chars = List.replicate 256 'a' := String.toList_ofList

theorem longName_outOfReach : FileTree.OutOfReach {} ⟨.relative, [longName]⟩ := by
  have hback : longName.isBack = false := by decide +kernel
  have hlong : longName.isTooLong = true := by decide +kernel
  have hnull : Path.holdsNull ⟨.relative, [longName]⟩ = false := by
    refine Path.not_holdsNull fun word hword ↦ ?_
    have hchars : word = longName.chars := by simpa [Path.words, Path.Root.words] using hword
    intro hmem
    rw [hchars, longName_chars] at hmem
    exact absurd (List.eq_of_mem_replicate hmem) (by decide)
  exact ⟨hnull, .inr (.here rfl hback hlong)⟩

/-- A name of 256 octets is not found, and no error says so. -/
theorem FileTree.long_name_not_reported :
    ¬ ∃ cause, FileTree.contents {} {} ⟨.relative, [longName]⟩ =
      .error (.unreadable ⟨⟨.relative, [longName]⟩, cause⟩) := by
  rintro ⟨cause, h⟩
  rw [contents_of_outOfReach longName_outOfReach] at h
  cases h

end SwiftInventory
