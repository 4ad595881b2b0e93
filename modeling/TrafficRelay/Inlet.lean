import TrafficRelay.Failure

/-!
# Inlets

An inlet is a queue of frames and read errors.  Senders put items in at its
end; the reader takes them out in the same order.  An inlet that is empty has
ended once its last sender is gone.
-/

namespace TrafficRelay

/-- What one read of an input yields. -/
inductive Item where
  | frame (bytes : Bytes)
  | failure (error : IoError)
  deriving DecidableEq, Repr

structure Inlet where
  queue : List Item
  senders : Nat
  deriving DecidableEq, Repr

/-- The outcome of a read: an item, nothing as yet, or nothing ever. -/
inductive Reading where
  | item (item : Item) (rest : Inlet)
  | pending
  | ended
  deriving DecidableEq, Repr

namespace Inlet

/-- An empty inlet with one sender. -/
def new : Inlet := ⟨[], 1⟩

/-- An inlet that yields these items and then ends. -/
def ofItems (items : List Item) : Inlet := ⟨items, 0⟩

def read (inlet : Inlet) : Reading :=
  match inlet.queue with
  | item :: queue => .item item { inlet with queue }
  | [] => if inlet.senders = 0 then .ended else .pending

/-- Put an item at the end of the queue. -/
def push (inlet : Inlet) (item : Item) : Inlet :=
  if inlet.senders = 0 then inlet else { inlet with queue := inlet.queue ++ [item] }

/-- One more sender, if there is one to take after. -/
def addSender (inlet : Inlet) : Inlet :=
  if inlet.senders = 0 then inlet else { inlet with senders := inlet.senders + 1 }

def removeSender (inlet : Inlet) : Inlet := { inlet with senders := inlet.senders - 1 }

/-- No sender is left. -/
def close (inlet : Inlet) : Inlet := { inlet with senders := 0 }

end Inlet

end TrafficRelay
