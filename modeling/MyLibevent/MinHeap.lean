import MyLibevent.Time
import MyLibevent.Lib.HoleHeap
import MyLibevent.Lib.Runs

/-!
# The timeout heap

`minheap-internal.h`: a binary heap of events ordered by `ev_timeout` in which every event
stores its own position. The heap is generic in the type `ε` of events; the deadlines are the
argument `timeout`, since the heap reads `ev_timeout` and never writes it. Growing the array
succeeds. Sizes are `Nat` and positions `Int`: the source has them as `unsigned` and `int`, which
is the same for heaps of fewer than 2^31 events.
-/

namespace MyLibevent

open HoleHeap (parent)

/-- `struct min_heap`, with the field `min_heap_idx` of the events as `idx`. Cells of the array `p`
from `n` on are unused, those from `a` on do not exist. -/
structure MinHeap (ε : Type*) where
  p : Nat → ε
  n : Nat
  a : Nat
  idx : ε → Int

namespace MinHeap

variable {ε : Type*} [DecidableEq ε] (timeout : ε → Timeval)

def ctor (p : Nat → ε) : MinHeap ε := ⟨p, 0, 0, fun _ => -1⟩

def elemGreater (a b : ε) : Bool := evutilTimercmpGt (timeout a) (timeout b)

omit [DecidableEq ε] in
lemma elemGreater_iff (a b : ε) : elemGreater timeout a b ↔ timeout b < timeout a :=
  evutilTimercmpGt_iff _ _

variable (s : MinHeap ε)

def place (holeIndex : Nat) (e : ε) : MinHeap ε :=
  { s with p := Function.update s.p holeIndex e, idx := Function.update s.idx e holeIndex }

def top : Option ε := if s.n ≠ 0 then some (s.p 0) else none

/-- The stored events, in the order of the array. -/
def events : List ε := (List.range s.n).map s.p

def reserve (n : Nat) : MinHeap ε :=
  if s.a < n then
    let a := if s.a ≠ 0 then s.a * 2 else 8
    { s with a := if a < n then n else a }
  else s

def shiftUp (s : MinHeap ε) (holeIndex : Nat) (e : ε) : MinHeap ε :=
  if holeIndex ≠ 0 ∧ elemGreater timeout (s.p (parent holeIndex)) e then
    shiftUp (s.place holeIndex (s.p (parent holeIndex))) (parent holeIndex) e
  else s.place holeIndex e
termination_by holeIndex
decreasing_by
  rename_i h
  exact HoleHeap.parent_lt (Nat.pos_of_ne_zero h.1)

def shiftUpUnconditional (holeIndex : Nat) (e : ε) : MinHeap ε :=
  shiftUp timeout (s.place holeIndex (s.p (parent holeIndex))) (parent holeIndex) e

/-- The child `min_heap_shift_down_` compares with: the right one unless it is missing or
later than the left one. -/
def minChild (holeIndex : Nat) : Nat :=
  let c := 2 * (holeIndex + 1)
  if c = s.n ∨ elemGreater timeout (s.p c) (s.p (c - 1)) then c - 1 else c

omit [DecidableEq ε] in
lemma minChild_eq (s : MinHeap ε) (holeIndex : Nat) :
    minChild timeout s holeIndex = 2 * holeIndex + 1 ∨
      minChild timeout s holeIndex = 2 * holeIndex + 2 ∧ 2 * holeIndex + 2 ≠ s.n := by
  unfold minChild
  dsimp only
  split
  · left; omega
  · rename_i h
    right
    exact ⟨by omega, fun he => h (Or.inl (by omega))⟩

def shiftDown (s : MinHeap ε) (holeIndex : Nat) (e : ε) : MinHeap ε :=
  if 2 * (holeIndex + 1) ≤ s.n then
    if elemGreater timeout e (s.p (minChild timeout s holeIndex)) then
      shiftDown (s.place holeIndex (s.p (minChild timeout s holeIndex))) (minChild timeout s holeIndex) e
    else s.place holeIndex e
  else s.place holeIndex e
termination_by s.n - holeIndex
decreasing_by
  have := minChild_eq timeout s holeIndex
  simp only [place]
  omega

def push (e : ε) : MinHeap ε :=
  let s := s.reserve (s.n + 1)
  shiftUp timeout { s with n := s.n + 1 } s.n e

def clearIdx (e : ε) : MinHeap ε := { s with idx := Function.update s.idx e (-1) }

def pop : MinHeap ε × Option ε :=
  if s.n ≠ 0 then
    let e := s.p 0
    let s := { s with n := s.n - 1 }
    ((shiftDown timeout s 0 (s.p s.n)).clearIdx e, some e)
  else (s, none)

def replace (e last : ε) : MinHeap ε :=
  let i := (s.idx e).toNat
  if 0 < i ∧ elemGreater timeout (s.p (parent i)) last then shiftUpUnconditional timeout s i last
  else shiftDown timeout s i last

def erase (e : ε) : MinHeap ε × Int :=
  if s.idx e ≠ -1 then
    let s := { s with n := s.n - 1 }
    ((replace timeout s e (s.p s.n)).clearIdx e, 0)
  else (s, -1)

def adjust (e : ε) : MinHeap ε :=
  if s.idx e = -1 then push timeout s e else replace timeout s e e

end MinHeap

/-- The calls of the heap. A deadline may change while its event is not stored, that is
before a push, and right before an adjust. -/
inductive HeapCall (ε : Type*)
  | push (e : ε) (t : Timeval)
  | pop
  | erase (e : ε)
  | adjust (e : ε) (t : Timeval)

/-- A heap, the deadlines, and the events pushed and not removed since. -/
structure HeapRun (ε : Type*) where
  heap : MinHeap ε
  timeout : ε → Timeval
  present : Finset ε

namespace HeapRun

variable {ε : Type*} [DecidableEq ε]

def init (p : Nat → ε) (timeout : ε → Timeval) : HeapRun ε := ⟨MinHeap.ctor p, timeout, ∅⟩

def step (r : HeapRun ε) : HeapCall ε → HeapRun ε
  | .push e t =>
    let timeout := Function.update r.timeout e t
    ⟨r.heap.push timeout e, timeout, insert e r.present⟩
  | .pop =>
    let (heap, e) := r.heap.pop r.timeout
    ⟨heap, r.timeout, e.elim r.present r.present.erase⟩
  | .erase e => ⟨(r.heap.erase r.timeout e).1, r.timeout, r.present.erase e⟩
  | .adjust e t =>
    let timeout := Function.update r.timeout e t
    ⟨r.heap.adjust timeout e, timeout, insert e r.present⟩

def Allowed (r : HeapRun ε) : HeapCall ε → Prop
  | .push e _ => e ∉ r.present
  | _ => True

/-- The states that calls reach from an empty heap. -/
def Reachable (r : HeapRun ε) : Prop :=
  ∃ p timeout, Runs.Reached (fun r c => some (r.step c)) HeapRun.Allowed (HeapRun.init p timeout) r

end HeapRun

end MyLibevent
