import Mathlib.Data.List.Basic

/-!
# Channels

A buffered channel is the list of the values in its buffer. A send on a closed channel and a
second close panic; a send on a full channel blocks, unless it has a default.
-/

namespace Go

/-- What a goroutine may run into at a channel. -/
inductive ChanFault
  | sendOnClosed
  | closeOfClosed
  | blocked
  deriving DecidableEq, Repr

structure Chan (α : Type) where
  buffer : ℕ
  queue : List α := []
  closed : Bool := false
  deriving DecidableEq, Repr

namespace Chan

variable {α : Type}

def full (c : Chan α) : Bool := decide (c.buffer ≤ c.queue.length)

/-- `select { case c <- a: default: }`, with `none` for the default. -/
def trySend (c : Chan α) (a : α) : Except ChanFault (Option (Chan α)) :=
  if c.closed then .error .sendOnClosed
  else if c.full then .ok none
  else .ok (some { c with queue := c.queue ++ [a] })

def send (c : Chan α) (a : α) : Except ChanFault (Chan α) :=
  if c.closed then .error .sendOnClosed
  else if c.full then .error .blocked
  else .ok { c with queue := c.queue ++ [a] }

def close (c : Chan α) : Except ChanFault (Chan α) :=
  if c.closed then .error .closeOfClosed else .ok { c with closed := true }

/-- A value is taken from the buffer. -/
def receive (c : Chan α) : Chan α := { c with queue := c.queue.tail }

/-- Values are taken until there is none. -/
def drain (c : Chan α) : Chan α := { c with queue := [] }

theorem trySend_of_open {c : Chan α} (h : c.closed = false) (a : α) :
    c.trySend a = .ok (if c.full then none else some { c with queue := c.queue ++ [a] }) := by
  unfold trySend
  rw [h, if_neg Bool.false_ne_true]
  split <;> rfl

theorem close_of_open {c : Chan α} (h : c.closed = false) : c.close = .ok { c with closed := true } := by
  unfold close
  rw [h, if_neg Bool.false_ne_true]

end Chan

end Go
