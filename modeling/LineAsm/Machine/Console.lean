/-!
# Consoles

A console takes the output of a program.  It is given by what a write and a clear
do to its state and by whether they fail, so that a statement about every console
is a statement about every value of `Console`.  Three consoles are defined: a
stream that never fails, a stream that fails after a number of writes, and a buffer
that forgets its text when it is cleared.
-/

set_option autoImplicit false

namespace LineAsm

/-- A sink for output with a state of type `σ`.  Each operation gives the state
after it and, when it failed, the reason. -/
structure Console (σ : Type) where
  write : String → σ → σ × Option String
  clear : σ → σ × Option String

namespace Console

/-- The text that clears a terminal. -/
def clearSequence : String := "\x1b[H\x1b[2J"

/-- The console that clears by writing the clear sequence. -/
def ofWrite {σ : Type} (write : String → σ → σ × Option String) : Console σ where
  write := write
  clear := write clearSequence

/-- The console that keeps everything ever written and never fails. -/
def stream : Console String :=
  ofWrite fun text written => (written ++ text, none)

end Console

/-! ## A stream that runs full -/

/-- A stream with room for a number of further writes. -/
structure BoundedStream where
  written : String
  room : Nat
  deriving DecidableEq, Repr, Inhabited

/-- Write to a bounded stream: without room nothing is written. -/
def BoundedStream.write (text : String) : BoundedStream → BoundedStream × Option String
  | ⟨written, 0⟩ => (⟨written, 0⟩, some "console full")
  | ⟨written, room + 1⟩ => (⟨written ++ text, room⟩, none)

/-- The console that fails once its room is used up. -/
def Console.bounded : Console BoundedStream := .ofWrite BoundedStream.write

/-! ## A buffer that can be cleared -/

/-- The text written since the last clear, and how often the buffer was cleared. -/
structure OutputBuffer where
  text : String
  clears : Nat
  deriving DecidableEq, Repr, Inhabited

/-- The buffer before any output. -/
def OutputBuffer.empty : OutputBuffer := ⟨"", 0⟩

/-- The console that keeps the text since the last clear and never fails. -/
def Console.buffer : Console OutputBuffer where
  write := fun text ⟨kept, clears⟩ => (⟨kept ++ text, clears⟩, none)
  clear := fun buffer => (⟨"", buffer.clears + 1⟩, none)

end LineAsm
