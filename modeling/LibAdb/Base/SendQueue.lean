import LibAdb.Base.Protocol

/-!
# LibAdb.Base.SendQueue — the order in which writers get credit

`base/send_queue.rs`.  Places are handed out in order (`tail`), served in order (`head`), and a waiter may leave
from anywhere: from the head at once, from the end by taking `tail` back, from between by a mark in `gone` that
`head` or `tail` skips when it gets there.  The tickets are `u64` in the source and natural numbers here: in a run that
hands out fewer than `2 ^ 64` places no ticket overflows, and `finish` never takes from zero (`Line.Inv.no_overflow` of
`LibAdb.Base.FairQueue`).
-/

namespace LibAdb

structure SendQueue where
  head : ℕ
  tail : ℕ
  gone : Finset ℕ
  sending : ℕ
  deriving DecidableEq

namespace SendQueue

/-- `SendQueue::default` -/
def empty : SendQueue := ⟨0, 0, ∅, 0⟩

/-- The place handed out and the queue after it. -/
def enqueue (q : SendQueue) : ℕ × SendQueue := (q.tail, { q with tail := q.tail + 1 })

def turn (q : SendQueue) : ℕ := q.head

def isEmpty (q : SendQueue) : Bool := q.head == q.tail

def isSending (q : SendQueue) : Bool := 0 < q.sending

/-- `while gone.remove(&head) { head += 1 }`; every round removes a member, so `gone.card` rounds are enough. -/
def skipGone : ℕ → ℕ → Finset ℕ → ℕ × Finset ℕ
  | 0, head, gone => (head, gone)
  | fuel + 1, head, gone =>
    if head ∈ gone then skipGone fuel (head + 1) (gone.erase head) else (head, gone)

def advance (q : SendQueue) : SendQueue :=
  let (head, gone) := skipGone q.gone.card (q.head + 1) q.gone
  { q with head, gone }

def serve (q : SendQueue) : SendQueue := { q with sending := q.sending + 1 }.advance

def finish (q : SendQueue) : SendQueue := { q with sending := q.sending - 1 }

/-- `while tail > head && gone.remove(&(tail - 1)) { tail -= 1 }` -/
def dropGone (head : ℕ) : ℕ → Finset ℕ → ℕ × Finset ℕ
  | 0, gone => (0, gone)
  | tail + 1, gone =>
    if head < tail + 1 ∧ tail ∈ gone then dropGone head tail (gone.erase tail) else (tail + 1, gone)

/-- Whether the head moved, and the queue after it. -/
def leave (q : SendQueue) (place : ℕ) : Bool × SendQueue :=
  if place = q.head then (true, q.advance)
  else if place + 1 = q.tail then
    let (tail, gone) := dropGone q.head place q.gone
    (false, { q with tail, gone })
  else if q.head < place then (false, { q with gone := insert place q.gone })
  else (false, q)

end SendQueue

end LibAdb
