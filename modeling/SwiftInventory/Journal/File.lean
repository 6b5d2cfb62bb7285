import SwiftInventory.FileTree
import SwiftInventory.Journal

namespace SwiftInventory

/-- The location that a path spells: a double dot takes back the part before it, whether or not
there is such a folder. -/
def Path.spelled (current : Location) (p : Path) : Location :=
  (p.absoluteFrom current).parts.foldl
    (fun l part ↦ if part.isBack then l.dropLast else l ++ [part]) []

def FileTree.openLog (t : FileTree) (p : Path) : Except FileTree.Fault FileTree :=
  let place : Path := ⟨.absolute, p.spelled t.current⟩
  match t.read? place with
  | .ok (some _) => .ok t
  | _ => t.write place []

/-- The file is made ready first, even where the root has been set up before. -/
def Journal.setupIn (j : Journal) (t : FileTree) (level : Int) (verbose : Bool)
    (file? : Option Path) : Except FileTree.Fault (Journal × FileTree) :=
  match file? with
  | none => .ok (j.setup level verbose false, t)
  | some file => (t.openLog file).map (j.setup level verbose true, ·)

end SwiftInventory
