import Mathlib.Data.List.Basic
import SwiftInventory.Text.Basic

namespace SwiftInventory.Text

/-- A carriage return goes where a line feed follows it. -/
def joinPairs : List Char → List Char
  | [] => []
  | c :: rest => if c = '\r' ∧ rest.head? = some '\n' then joinPairs rest else c :: joinPairs rest

def feedForReturn (c : Char) : Char := if c = '\r' then '\n' else c

inductive LineEnd
  | feed
  | pair
  | ret
deriving DecidableEq

namespace LineEnd

def chars : LineEnd → List Char
  | feed => ['\n']
  | pair => ['\r', '\n']
  | ret => ['\r']

def write (e : LineEnd) (s : List Char) : List Char :=
  s.flatMap fun c ↦ if c = '\n' then e.chars else [c]

end LineEnd

variable {s : List Char} {c : Char}

theorem joinPairs_pair (s : List Char) : joinPairs ('\r' :: '\n' :: s) = joinPairs ('\n' :: s) :=
  if_pos ⟨rfl, rfl⟩

theorem joinPairs_lone (h : s.head? ≠ some '\n') : joinPairs ('\r' :: s) = '\r' :: joinPairs s :=
  if_neg fun hpair ↦ h hpair.2

theorem joinPairs_cons (h : c ≠ '\r') : joinPairs (c :: s) = c :: joinPairs s :=
  if_neg fun hpair ↦ h hpair.1

theorem feedForReturn_of_ne (h : c ≠ '\r') : feedForReturn c = c := if_neg h

theorem unifyLineEndsFrom_return (done : List Char) (after : Bool) (s : List Char) :
    unifyLineEndsFrom done after ('\r' :: s) = unifyLineEndsFrom ('\n' :: done) true s := rfl

theorem unifyLineEndsFrom_feed (done s : List Char) :
    unifyLineEndsFrom done true ('\n' :: s) = unifyLineEndsFrom done false s := rfl

theorem unifyLineEndsFrom_other {done : List Char} {after : Bool} (hr : c ≠ '\r')
    (hn : c = '\n' → after = false) :
    unifyLineEndsFrom done after (c :: s) = unifyLineEndsFrom (c :: done) false s := by
  rw [unifyLineEndsFrom, if_neg (by simpa using hr), if_neg (by simpa using hn)]

/-- Behind a carriage return the line feed that stands for it is already written. -/
theorem unifyLineEndsFrom_eq (s done : List Char) :
    unifyLineEndsFrom done false s = done.reverse ++ (joinPairs s).map feedForReturn ∧
      unifyLineEndsFrom ('\n' :: done) true s =
        done.reverse ++ (joinPairs ('\r' :: s)).map feedForReturn := by
  induction s generalizing done with
  | nil => exact ⟨by simp [unifyLineEndsFrom, joinPairs], List.reverse_cons⟩
  | cons c s ih =>
    by_cases hr : c = '\r'
    · have hlone : joinPairs ('\r' :: c :: s) = '\r' :: joinPairs (c :: s) :=
        joinPairs_lone (by simp [hr])
      rw [hlone, hr, unifyLineEndsFrom_return, unifyLineEndsFrom_return, (ih done).2, (ih _).2]
      simp [feedForReturn]
    · have hfalse : unifyLineEndsFrom done false (c :: s) =
          done.reverse ++ (joinPairs (c :: s)).map feedForReturn := by
        rw [unifyLineEndsFrom_other hr fun _ ↦ rfl, (ih _).1, joinPairs_cons hr]
        simp [feedForReturn_of_ne hr]
      refine ⟨hfalse, ?_⟩
      by_cases hn : c = '\n'
      · rw [hn, joinPairs_pair, unifyLineEndsFrom_feed, (ih _).1, joinPairs_cons (by decide)]
        simp [feedForReturn]
      · have hlone : joinPairs ('\r' :: c :: s) = '\r' :: joinPairs (c :: s) :=
          joinPairs_lone (by simpa using hn)
        rw [unifyLineEndsFrom_other hr fun h ↦ absurd h hn, (ih _).1, hlone, joinPairs_cons hr]
        simp [feedForReturn, hr]

/-- First the pairs, then the carriage returns that are left. -/
theorem unifyLineEnds_eq (s : List Char) :
    unifyLineEnds s = (joinPairs s).map feedForReturn :=
  (unifyLineEndsFrom_eq s []).1

example : unifyLineEnds ['a', '\r', '\r', '\n', 'b', '\n'] = ['a', '\n', '\n', 'b', '\n'] := by
  decide

theorem return_not_mem_unifyLineEnds : '\r' ∉ unifyLineEnds s := by
  rw [unifyLineEnds_eq, List.mem_map]
  rintro ⟨c, -, hc⟩
  rw [feedForReturn] at hc
  split at hc
  · cases hc
  · contradiction

theorem LineEnd.write_cons_of_ne {e : LineEnd} (h : c ≠ '\n') :
    e.write (c :: s) = c :: e.write s := by
  simp [write, h]

theorem LineEnd.write_feed_cons (e : LineEnd) (s : List Char) :
    e.write ('\n' :: s) = e.chars ++ e.write s := by
  simp [write]

theorem LineEnd.feed_not_mem_write : '\n' ∉ LineEnd.ret.write s := by
  rw [write, List.mem_flatMap]
  rintro ⟨c, -, hc⟩
  split at hc
  · simp [chars] at hc
  · rename_i hn
    exact hn (List.mem_singleton.1 hc).symm

theorem unifyLineEnds_write (e : LineEnd) (h : '\r' ∉ s) : unifyLineEnds (e.write s) = s := by
  rw [unifyLineEnds_eq]
  induction s with
  | nil => rfl
  | cons c s ih =>
    have hr : c ≠ '\r' := fun hr ↦ h (hr ▸ List.mem_cons_self)
    have hrest := ih fun hs ↦ h (List.mem_cons_of_mem _ hs)
    have hcons : (joinPairs (c :: e.write s)).map feedForReturn = c :: s := by
      rw [joinPairs_cons hr, List.map_cons, feedForReturn_of_ne hr, hrest]
    by_cases hn : c = '\n'
    · subst hn
      rw [LineEnd.write_feed_cons]
      cases e with
      | feed => exact hcons
      | pair => exact (congrArg _ (joinPairs_pair _)).trans hcons
      | ret =>
        have hlone : (LineEnd.ret.write s).head? ≠ some '\n' :=
          fun hhead ↦ LineEnd.feed_not_mem_write (List.mem_of_mem_head? hhead)
        rw [LineEnd.chars, List.singleton_append, joinPairs_lone hlone, List.map_cons, hrest]
        rfl
    · rw [LineEnd.write_cons_of_ne hn, hcons]

end SwiftInventory.Text
