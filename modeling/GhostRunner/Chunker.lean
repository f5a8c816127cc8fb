import GhostRunner.Machine
import GhostRunner.PyStr

/-! `SentenceChunker` (`voice/chunker.py`). -/
namespace GhostRunner

open Machine

def terminators : PyStr := PyStr.ofString "。！？!?…\n"
def glue : PyStr := PyStr.ofString "」』）)】＞>\"'’”" ++ terminators
def contentFree : PyStr := glue ++ PyStr.ofString "「『（(【＜<‘“ \t　"

def maxSentenceChars : Nat := 200

def speakable (sentence : PyStr) : Bool := sentence.any fun ch => ch ∉ contentFree

/-- `buf` is the sentence in progress, `done` a completed one that awaits possible closers. -/
structure SentenceChunker where
  buf : PyStr := []
  done : Option PyStr := none
  deriving DecidableEq, Repr

namespace SentenceChunker

/-- `_emit`, with the sentences it appends. -/
def emit (c : SentenceChunker) : SentenceChunker × List PyStr :=
  match c.done with
  | none => (c,[])
  | some done =>
    ({ c with done := none },if speakable (PyStr.strip done) then [PyStr.strip done] else [])

/-- The end of the loop body: the character belongs to the sentence in progress. -/
def push (c : SentenceChunker) (ch : CodePoint) : SentenceChunker :=
  let buf := c.buf ++ [ch]
  if ch ∈ terminators ∨ maxSentenceChars ≤ buf.length then { buf := [], done := some buf }
  else { c with buf := buf }

/-- The body of the loop in `feed`. -/
def feedChar (c : SentenceChunker) (ch : CodePoint) : SentenceChunker × List PyStr :=
  match c.done with
  | some done =>
    if ch ∈ glue then ({ c with done := some (done ++ [ch]) },[])
    else (c.emit.1.push ch,c.emit.2)
  | none => (c.push ch,[])

def feed (c : SentenceChunker) (delta : PyStr) : SentenceChunker × List PyStr :=
  transduce feedChar c delta

def flush (c : SentenceChunker) : SentenceChunker × List PyStr :=
  let remainder := PyStr.strip c.emit.1.buf
  ({ c.emit.1 with buf := [] },c.emit.2 ++ if speakable remainder then [remainder] else [])

end SentenceChunker

/-- The sentences that the deltas complete, and those of the final `flush`. -/
def sentences (deltas : List PyStr) : List PyStr :=
  let fed := transduce SentenceChunker.feed {} deltas
  fed.2 ++ fed.1.flush.2

example : sentences (["「猫だ！","」と叫んだ。","（…）"].map PyStr.ofString) =
    ["「猫だ！」","と叫んだ。"].map PyStr.ofString := by decide

end GhostRunner
