import ExactNumerics.Flonum.Vector

/-!
# Collecting a sequence

A sequence is given by its items: item `i`, or nothing from its end on. With a known length the
vector is made first and filled from the front, pulling no item more than it needs; without one,
the items go into a buffer that doubles when it is full.

## Main definitions

* `GrowingBuffer`: a buffer of which an initial part is in use.
* `FlonumVector.collect`: the vector of all the items of a list.
* `FlonumVector.fillFrom`: a vector of a known length, with the number of items pulled.
* `FlonumVector.build`, `FlonumVector.mapRows`: the vectors of a function of the index, and of a
  function of the elements at equal places.
-/

namespace ExactNumerics

/-! ### Growing buffers -/

/-- A buffer of doubles of which the first `count` are in use. -/
structure GrowingBuffer where
  /-- All the places. -/
  places : Array Binary64
  /-- How many are in use. -/
  count : Nat
  /-- No more are in use than there are. -/
  count_le : count ≤ places.size
  /-- There is always a place. -/
  size_pos : 0 < places.size

namespace GrowingBuffer

/-- The number of places of a new buffer. -/
def initialCapacity : Nat := 4

/-- A new buffer. -/
def empty : GrowingBuffer where
  places := Array.replicate initialCapacity default
  count := 0
  count_le := Nat.zero_le _
  size_pos := by simp [initialCapacity]

/-- The buffer with twice the places. -/
def doubled (b : GrowingBuffer) : GrowingBuffer where
  places := b.places ++ Array.replicate b.places.size default
  count := b.count
  count_le := by
    have := b.count_le
    rw [Array.size_append, Array.size_replicate]
    omega
  size_pos := by
    have := b.size_pos
    rw [Array.size_append, Array.size_replicate]
    omega

/-- Writes to the next place of a buffer that has one. -/
def write (b : GrowingBuffer) (x : Binary64) (h : b.count < b.places.size) : GrowingBuffer where
  places := b.places.set b.count x h
  count := b.count + 1
  count_le := by
    rw [Array.size_set]
    omega
  size_pos := by
    rw [Array.size_set]
    omega

/-- A doubled buffer has a free place. -/
theorem count_lt_doubled (b : GrowingBuffer) : b.doubled.count < b.doubled.places.size := by
  have h1 := b.count_le
  have h2 := b.size_pos
  simp [doubled]
  omega

/-- Writes to the next place, doubling a full buffer first. -/
def push (b : GrowingBuffer) (x : Binary64) : GrowingBuffer :=
  if h : b.count < b.places.size then b.write x h else b.doubled.write x b.count_lt_doubled

/-- The part in use. -/
def trimmed (b : GrowingBuffer) : FlonumVector := b.places.extract 0 b.count

end GrowingBuffer

namespace FlonumVector

variable {α : Type}

/-- Converts the items of a list one by one into a growing buffer. -/
def collectInto (convert : α → Except Failure Binary64) :
    List α → GrowingBuffer → Except Failure GrowingBuffer
  | [], b => .ok b
  | item :: items, b => do collectInto convert items (b.push (← convert item))

/-- The vector of the converted items of a list. -/
def collect (convert : α → Except Failure Binary64) (items : List α) :
    Except Failure FlonumVector :=
  return (← collectInto convert items .empty).trimmed

/-- Writes converted items to the places from `i` on, until the vector is full or the sequence
ends. Returns the vector and the number of items pulled. -/
def fillFrom (convert : α → Except Failure Binary64) (sequence : Nat → Option α) (i : Nat)
    (v : FlonumVector) : Except Failure (FlonumVector × Nat) :=
  if h : i < v.size then
    match sequence i with
    | none => .ok (v, i)
    | some item =>
      match convert item with
      | .error f => .error f
      | .ok x => fillFrom convert sequence (i + 1) (Array.set v i x h)
  else .ok (v, i)
termination_by v.size - i
decreasing_by rw [Array.size_set]; omega

/-- The vector of length `n` that begins with the items of a sequence and ends with zeros, and the
number of items pulled. -/
def take (convert : α → Except Failure Binary64) (n : Nat) (sequence : Nat → Option α) :
    Except Failure (FlonumVector × Nat) :=
  fillFrom convert sequence 0 (Array.replicate n (Binary64.zero false))

/-- The vector of the converted values of a function at `0`, …, `n - 1`. -/
def build (convert : α → Except Failure Binary64) (n : Nat) (f : Nat → α) :
    Except Failure FlonumVector :=
  return (← take convert n fun i => if i < n then some (f i) else none).1

/-- The vector of the converted values of a function of the elements at equal places, as many as the
first vector has. -/
def mapRows (convert : α → Except Failure Binary64) (f : List Binary64 → α)
    (vs : List FlonumVector) : Except Failure FlonumVector :=
  build convert (vs.headD #[]).size fun i => f (vs.map fun v => v.getD i default)

end FlonumVector

end ExactNumerics
