import NesMachine.Word

/-!
# The sprite transfer

A transfer copies a page of the processor's memory to sprite memory while the processor waits. It first
waits for an even cycle, which takes one cycle or two, and then takes two cycles for each byte.
-/

namespace NesMachine

inductive SpriteTransfer.State
  | idle
  | aligning
  | copying (offset : UInt8)
  deriving DecidableEq, Repr

/-- The transfer engine with the page that was last asked for. -/
structure SpriteTransfer where
  state : SpriteTransfer.State := .idle
  page : UInt8 := 0
  deriving DecidableEq, Repr, Inhabited

namespace SpriteTransfer

/-- Starts a transfer, in place of the one that may be under way. -/
def start (page : UInt8) : SpriteTransfer :=
  { state := .aligning, page }

def isActive (dma : SpriteTransfer) : Bool :=
  dma.state != .idle

structure Copy where
  source : UInt16
  offset : UInt8
  deriving DecidableEq, Repr

structure Step where
  cycles : Nat
  copy : Option Copy := none
  next : SpriteTransfer

/-- The next step, where `now` is the count of cycles before it. -/
def step (dma : SpriteTransfer) (now : Nat) : Step :=
  match dma.state with
  | .idle => { cycles := 0, next := dma }
  | .aligning => { cycles := 1 + now % 2, next := { dma with state := .copying 0 } }
  | .copying offset =>
    { cycles := 2
      copy := some { source := Word.ofBytes offset dma.page, offset }
      next := { dma with state := if offset = 0xFF then .idle else .copying (offset + 1) } }

end SpriteTransfer

end NesMachine
