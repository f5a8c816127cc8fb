import GhostRunner.Chunker
import GhostRunner.Segments

/-! What `SentenceChunker` does to a text, in terms of the segments of the text: its output is
the segments stripped, those that do not speak left out; what it holds back is the last segment. -/
namespace GhostRunner

open Machine Segments

def chunkRule : Rule CodePoint where
  terminator := fun ch => ch ∈ terminators
  glue := fun ch => ch ∈ glue
  limit := maxSentenceChars

/-- What is spoken of the segments. -/
def spoken (segments : List PyStr) : List PyStr := (segments.map PyStr.strip).filter speakable

/-- A character that `_speakable` or `str.strip` sees something in. -/
def hasContent (ch : CodePoint) : Bool := ch ∉ contentFree && !PyStr.isSpace ch

namespace SentenceChunker

/-- The text that has been taken in and not yet handed out. -/
def pending (c : SentenceChunker) : PyStr := c.done.getD [] ++ c.buf

/-- The last segment as far as it has come. -/
def tail (c : SentenceChunker) : List PyStr := if c.pending = [] then [] else [c.pending]

/-- The states that the chunker gets into: in a segment, or at the glue after its core. -/
inductive Fine : SentenceChunker → Prop
  | writing {buf : PyStr} : chunkRule.Open buf → Fine { buf := buf, done := none }
  | held {core run : PyStr} : chunkRule.Core core core → (∀ ch ∈ run, ch ∈ glue) →
      Fine { buf := [], done := some (core ++ run) }

theorem Fine.init : Fine {} := .writing Rule.open_nil

end SentenceChunker

open SentenceChunker

theorem hasContent_iff {ch : CodePoint} :
    hasContent ch = true ↔ ch ∉ contentFree ∧ PyStr.isSpace ch = false := by
  simp only [hasContent,Bool.and_eq_true,decide_eq_true_eq,Bool.not_eq_true']

theorem feed_flatten (c : SentenceChunker) (deltas : List PyStr) :
    transduce feed c deltas = transduce feedChar c deltas.flatten :=
  transduce_flatten c deltas

theorem spoken_append (first rest : List PyStr) :
    spoken (first ++ rest) = spoken first ++ spoken rest := by
  simp [spoken]

theorem spoken_singleton (segment : PyStr) : spoken [segment] =
    if speakable (PyStr.strip segment) then [PyStr.strip segment] else [] := by
  by_cases speaks : speakable (PyStr.strip segment) = true <;> simp [spoken,speaks]

/-! ## One character -/

/-- A terminator or the last character that fits is what ends a sentence in progress. -/
theorem ends_snoc {buf : PyStr} {ch : CodePoint} (short : buf.length < maxSentenceChars) :
    (ch ∈ terminators ∨ maxSentenceChars ≤ (buf ++ [ch]).length) ↔
      chunkRule.Ends (buf ++ [ch]) := by
  constructor
  · rintro (terminator | long)
    · exact .inl ⟨buf,ch,rfl,terminator⟩
    · right
      simp only [List.length_append,List.length_singleton,chunkRule] at long ⊢
      omega
  · rintro (⟨before,last,split,terminator⟩ | full)
    · obtain ⟨_,same⟩ := List.append_inj' split rfl
      obtain rfl := List.singleton_inj.mp same
      exact .inl terminator
    · exact .inr (ge_of_eq full)

theorem push_fine {c : SentenceChunker} {ch : CodePoint} (written : chunkRule.Open c.buf)
    (none : c.done = none) : Fine (c.push ch) ∧ (c.push ch).pending = c.buf ++ [ch] := by
  have short := written.length_lt (by decide)
  by_cases ends : ch ∈ terminators ∨ maxSentenceChars ≤ (c.buf ++ [ch]).length
  · have core := written.ended ((ends_snoc short).mp ends)
    have held := @Fine.held (c.buf ++ [ch]) [] core (by simp)
    simp only [List.append_nil] at held
    simp only [push,if_pos ends]
    exact ⟨held,by simp [pending]⟩
  · have going := written.snoc (mt (ends_snoc short).mpr ends)
    simp only [push,if_neg ends,none]
    exact ⟨.writing going,by simp [pending]⟩

/-- Glue goes to what is pending. -/
theorem feedChar_glue (c : SentenceChunker) {ch : CodePoint} (glued : ch ∈ glue) :
    (c.feedChar ch).1.pending.length = c.pending.length + 1 := by
  cases held : c.done with
  | some done => simp [feedChar,held,glued,pending]; omega
  | none =>
    simp only [feedChar,held,push]
    split <;> simp [pending,held]

/-! ## A text -/

theorem tail_segmentation {c : SentenceChunker} (fine : Fine c) :
    chunkRule.Segmentation c.pending c.tail := by
  cases fine with
  | @writing buf written =>
    by_cases empty : buf = []
    · simpa [tail,pending,empty] using Rule.Segmentation.done
    · simpa [tail,pending,empty] using Rule.Segmentation.unfinished empty written
  | @held core run isCore glued =>
    have isRun : chunkRule.Run run (run ++ []) := .intro glued (by simp)
    have cut := Rule.Segmentation.segment (isCore.extend (run ++ [])) isRun .done
    simpa [tail,pending,isCore.nonempty] using cut

/-- From a state that the chunker gets into, it hands out all segments of what is pending and
the text but the last, and keeps that. -/
theorem feed_segments {c : SentenceChunker} (fine : Fine c) (text : PyStr) :
    Fine (transduce feedChar c text).1 ∧ ∃ segments,
      chunkRule.Segmentation (c.pending ++ text) (segments ++ (transduce feedChar c text).1.tail) ∧
      (transduce feedChar c text).2 = spoken segments := by
  induction text generalizing c with
  | nil => exact ⟨fine,[],by simpa using tail_segmentation fine,rfl⟩
  | cons ch text ih =>
    cases fine with
    | @writing buf written =>
      obtain ⟨next,grown⟩ := @push_fine ⟨buf,none⟩ ch written rfl
      obtain ⟨last,segments,cut,out⟩ := ih next
      rw [grown] at cut
      exact ⟨last,segments,by simpa [pending,transduce,feedChar] using cut,out⟩
    | @held core run isCore glued =>
      by_cases glues : ch ∈ glue
      · have next : Fine { buf := [], done := some (core ++ (run ++ [ch])) } := by
          apply Fine.held isCore
          intro other member
          rcases List.mem_append.mp member with old | new
          · exact glued other old
          · rwa [List.mem_singleton.mp new]
        obtain ⟨last,segments,cut,out⟩ := ih next
        simp only [transduce,feedChar,if_pos glues,List.append_assoc,List.nil_append]
        refine ⟨last,segments,?_,out⟩
        simpa [pending] using cut
      · obtain ⟨next,grown⟩ := @push_fine {} ch Rule.open_nil rfl
        obtain ⟨last,segments,cut,out⟩ := ih next
        have isRun : chunkRule.Run run (run ++ (ch :: text)) := .intro glued (by simpa [chunkRule])
        simp only [transduce,feedChar,if_neg glues,emit]
        refine ⟨last,(core ++ run) :: segments,?_,?_⟩
        · rw [grown] at cut
          have whole := Rule.Segmentation.segment (isCore.extend _) isRun cut
          simpa [pending] using whole
        · rw [out,← spoken_singleton,← spoken_append]
          rfl

theorem flush_fine {c : SentenceChunker} (fine : Fine c) : c.flush = ({},spoken c.tail) := by
  have silent : spoken [[]] = [] := rfl
  have out (text : PyStr) : spoken (if text = [] then [] else [text]) = spoken [text] := by
    split
    · next empty => rw [empty,silent]; rfl
    · rfl
  rw [tail,out,spoken_singleton]
  cases fine with
  | writing =>
    simp only [flush,emit,pending,Option.getD_none,List.nil_append]
    rfl
  | held => simp [flush,emit,pending,PyStr.strip,speakable]

/-- The chunker's output and state after deltas and `flush`. -/
theorem sentences_segments (deltas : List PyStr) : ∃ segments,
    chunkRule.Segmentation deltas.flatten segments ∧ sentences deltas = spoken segments ∧
      (transduce feed {} deltas).1.flush.1 = {} := by
  have whole := feed_flatten {} deltas
  obtain ⟨fine,segments,cut,out⟩ := feed_segments Fine.init deltas.flatten
  refine ⟨_,by simpa [pending] using cut,?_,?_⟩
  · simp only [sentences,whole,out,flush_fine fine,spoken_append]
  · rw [whole,flush_fine fine]

/-! ## What is kept of the text -/

/-- Nothing with content is stripped. -/
theorem strip_content (s : PyStr) : (PyStr.strip s).filter hasContent = s.filter hasContent := by
  have blank (text : PyStr) (spaces : ∀ ch ∈ text, PyStr.isSpace ch = true) :
      text.filter hasContent = [] := by
    apply List.filter_eq_nil_iff.mpr
    intro ch member
    simp [hasContent,spaces ch member]
  obtain ⟨left,right,split,leftBlank,rightBlank⟩ := PyStr.strip_split s
  conv_rhs => rw [split]
  rw [List.filter_append,List.filter_append,blank left leftBlank,blank right rightBlank]
  simp

theorem spoken_content (segments : List PyStr) :
    (spoken segments).flatten.filter hasContent = segments.flatten.filter hasContent := by
  induction segments with
  | nil => rfl
  | cons segment segments ih =>
    have first : (spoken [segment]).flatten.filter hasContent = segment.filter hasContent := by
      rw [spoken_singleton,← strip_content segment]
      split
      · rw [List.flatten_singleton]
      · next silent =>
        apply Eq.symm
        apply List.filter_eq_nil_iff.mpr
        intro ch member content
        apply silent
        apply List.any_eq_true.mpr
        exact ⟨ch,member,decide_eq_true (hasContent_iff.mp content).1⟩
    have split : spoken (segment :: segments) = spoken [segment] ++ spoken segments :=
      spoken_append [segment] segments
    rw [split,List.flatten_append,List.filter_append,first,ih,List.flatten_cons,List.filter_append]

/-- However the text comes, the output is that of the one segmentation of the text; all content
is kept in its order, and the chunker can be used again. -/
theorem sentences_are_segments (deltas : List PyStr) :
    (∃ segments, (∀ others, chunkRule.Segmentation deltas.flatten others ↔ others = segments) ∧
      sentences deltas = (segments.map PyStr.strip).filter speakable) ∧
    (sentences deltas).flatten.filter hasContent = deltas.flatten.filter hasContent ∧
    (transduce feed {} deltas).1.flush.1 = {} := by
  obtain ⟨segments,cut,out,initial⟩ := sentences_segments deltas
  refine ⟨⟨segments,?_,out⟩,?_,initial⟩
  · intro others
    constructor
    · intro other; exact other.unique cut
    · rintro rfl; exact cut
  · rw [out,spoken_content,cut.flatten]

/-! ## How much is held back -/

/-- No sentence, and nothing that is pending after a `feed`, is longer than the bound. -/
def Bounded (bound : Nat) (deltas : List PyStr) : Prop :=
  (∀ sentence ∈ sentences deltas, sentence.length ≤ bound) ∧
  ∀ fed rest, deltas = fed ++ rest → (transduce feed {} fed).1.pending.length ≤ bound

theorem strip_length_le (s : PyStr) : (PyStr.strip s).length ≤ s.length := by
  obtain ⟨left,right,split,_,_⟩ := PyStr.strip_split s
  have lengths := congrArg List.length split
  simp only [List.length_append] at lengths
  omega

/-- A segment is longer than the limit by no more than a run of glue in the text. -/
theorem segment_length_le {text : PyStr} {segments : List PyStr} {longest : Nat}
    (cut : chunkRule.Segmentation text segments)
    (runs : ∀ run, run <:+: text → (∀ ch ∈ run, ch ∈ glue) → run.length ≤ longest) :
    ∀ segment ∈ segments, segment.length ≤ maxSentenceChars + longest := by
  intro segment member
  obtain ⟨_,core,run,rfl,short,glued⟩ := cut.shape (by decide) segment member
  have inside : core ++ run <:+: text := by
    rw [← cut.flatten]
    exact List.infix_of_mem_flatten member
  have bound := runs run ((List.suffix_append core run).isInfix.trans inside) glued
  simp only [chunkRule] at short
  rw [List.length_append]
  omega

theorem bounded_of_runs {deltas : List PyStr} {longest : Nat}
    (runs : ∀ run, run <:+: deltas.flatten → (∀ ch ∈ run, ch ∈ glue) → run.length ≤ longest) :
    Bounded (maxSentenceChars + longest) deltas := by
  constructor
  · intro sentence member
    obtain ⟨segments,cut,out,_⟩ := sentences_segments deltas
    rw [out] at member
    obtain ⟨segment,among,rfl⟩ := List.mem_map.mp (List.mem_of_mem_filter member)
    exact (strip_length_le segment).trans (segment_length_le cut runs segment among)
  · rintro fed rest rfl
    have whole := feed_flatten {} fed
    obtain ⟨fine,segments,cut,_⟩ := feed_segments Fine.init fed.flatten
    rw [whole]
    by_cases empty : (transduce feedChar {} fed.flatten).1.pending = []
    · simp [empty]
    · apply segment_length_le cut
      · intro run inside glued
        apply runs run _ glued
        rw [List.flatten_append]
        exact List.infix_append_of_infix_left inside
      · simp [tail,empty]

theorem feed_glue {run : PyStr} (glued : ∀ ch ∈ run, ch ∈ glue) (c : SentenceChunker) :
    (transduce feedChar c run).1.pending.length = c.pending.length + run.length := by
  induction run generalizing c with
  | nil => rfl
  | cons ch run ih =>
    have ⟨first,rest⟩ := List.forall_mem_cons.mp glued
    simp only [transduce,ih rest,feedChar_glue c first,List.length_cons]
    omega

/-- Over a class of texts the chunker is bounded just when the runs of glue are. -/
theorem bounded_iff_runs (texts : Set PyStr) :
    (∃ bound, ∀ text ∈ texts, ∀ deltas, deltas.flatten = text → Bounded bound deltas) ↔
    ∃ longest, ∀ text ∈ texts, ∀ run, run <:+: text → (∀ ch ∈ run, ch ∈ glue) →
      run.length ≤ longest := by
  constructor
  · rintro ⟨bound,all⟩
    refine ⟨bound,?_⟩
    rintro text member run ⟨before,after,rfl⟩ glued
    have held := (all _ member [before,run,after] (by simp)).2 [before,run] [after] rfl
    have whole : [before,run].flatten = before ++ run := by simp
    rw [feed_flatten,whole,transduce_append,feed_glue glued] at held
    omega
  · rintro ⟨longest,runs⟩
    refine ⟨maxSentenceChars + longest,?_⟩
    rintro text member deltas rfl
    exact bounded_of_runs (runs _ member)

/-- Exclamation marks without end. -/
theorem unbounded : ¬∃ bound, ∀ deltas, Bounded bound deltas := by
  rintro ⟨bound,all⟩
  have glued : ∀ ch ∈ List.replicate (bound + 1) (Char.codePoint '!'), ch ∈ glue := by
    intro ch member
    rw [List.eq_of_mem_replicate member]
    decide
  have held := (all [List.replicate (bound + 1) (Char.codePoint '!')]).2 _ [] (by rw [List.append_nil])
  rw [feed_flatten,List.flatten_singleton,feed_glue glued,List.length_replicate] at held
  omega

/-! ## Whether a sentence says something -/

/-- Punctuation and white space only, with a white space character that `_CONTENT_FREE` does not
list at a place where `strip` does not reach it. -/
def Hollow (segment : PyStr) : Prop :=
  (∀ ch ∈ segment, hasContent ch = false) ∧
  ∃ before gap after, segment = before ++ gap :: after ∧ gap ∉ contentFree ∧
    (∃ ch ∈ before, PyStr.isSpace ch = false) ∧ ∃ ch ∈ after, PyStr.isSpace ch = false

theorem hollow_iff {segment : PyStr} (none : ∀ ch ∈ segment, hasContent ch = false) :
    speakable (PyStr.strip segment) = true ↔ Hollow segment := by
  constructor
  · intro speaks
    obtain ⟨gap,member,free⟩ := List.any_eq_true.mp speaks
    simp only [decide_eq_true_eq] at free
    obtain ⟨left,right,split,_,_⟩ := PyStr.strip_split segment
    have space : PyStr.isSpace gap = true := by
      have inside : gap ∈ segment := by
        rw [split]
        simp [member]
      by_contra plain
      have content := hasContent_iff.mpr ⟨free,Bool.eq_false_iff.mpr plain⟩
      rw [none gap inside] at content
      cases content
    obtain ⟨before,after,inside⟩ := List.append_of_mem member
    have whole : segment = (left ++ before) ++ gap :: (after ++ right) :=
      split.trans (by simp [inside])
    refine ⟨none,left ++ before,gap,after ++ right,whole,free,?_,?_⟩
    · cases before with
      | nil =>
        rw [PyStr.strip_head inside] at space
        cases space
      | cons ch before => exact ⟨ch,by simp,PyStr.strip_head inside⟩
    · cases after using List.reverseRecOn with
      | nil =>
        rw [PyStr.strip_last inside] at space
        cases space
      | append_singleton after ch =>
        have last : PyStr.strip segment = (before ++ gap :: after) ++ [ch] := by simp [inside]
        exact ⟨ch,by simp,PyStr.strip_last last⟩
  · rintro ⟨_,before,gap,after,rfl,free,first,last⟩
    apply List.any_eq_true.mpr
    refine ⟨gap,?_,decide_eq_true free⟩
    rw [PyStr.strip_inside first last]
    simp

/-- Every sentence says something exactly if no segment of the text is hollow. -/
theorem sentences_say_iff (deltas : List PyStr) :
    (∀ sentence ∈ sentences deltas, sentence ≠ [] ∧ ∃ ch ∈ sentence,
      ch ∉ contentFree ∧ PyStr.isSpace ch = false) ↔
    ∀ segments, chunkRule.Segmentation deltas.flatten segments →
      ∀ segment ∈ segments, ¬Hollow segment := by
  obtain ⟨segments,cut,out,_⟩ := sentences_segments deltas
  rw [out]
  constructor
  · intro say others otherCut segment member hollow
    obtain rfl := otherCut.unique cut
    have speaks := (hollow_iff hollow.1).mpr hollow
    have among : PyStr.strip segment ∈ spoken others :=
      List.mem_filter.mpr ⟨List.mem_map_of_mem member,speaks⟩
    obtain ⟨_,ch,inside,content⟩ := say _ among
    have kept : ch ∈ (PyStr.strip segment).filter hasContent :=
      List.mem_filter.mpr ⟨inside,hasContent_iff.mpr content⟩
    rw [strip_content] at kept
    obtain ⟨inSegment,hasIt⟩ := List.mem_filter.mp kept
    rw [hollow.1 ch inSegment] at hasIt
    cases hasIt
  · intro sound sentence member
    obtain ⟨among,speaks⟩ := List.mem_filter.mp member
    obtain ⟨segment,inside,rfl⟩ := List.mem_map.mp among
    have some : ∃ ch ∈ segment, hasContent ch = true := by
      by_contra none
      have silent : ∀ ch ∈ segment, hasContent ch = false := by simpa using none
      exact sound segments cut segment inside ((hollow_iff silent).mp speaks)
    obtain ⟨ch,inSegment,content⟩ := some
    have kept : ch ∈ segment.filter hasContent := List.mem_filter.mpr ⟨inSegment,content⟩
    rw [← strip_content] at kept
    have stays := (List.mem_filter.mp kept).1
    exact ⟨List.ne_nil_of_mem stays,ch,stays,hasContent_iff.mp content⟩

/-- A carriage return between brackets is handed to TTS. -/
theorem hollow_sentence : ¬∀ sentence ∈ sentences (["（\r）。"].map PyStr.ofString),
    sentence ≠ [] ∧ ∃ ch ∈ sentence, ch ∉ contentFree ∧ PyStr.isSpace ch = false := by
  have out : sentences (["（\r）。"].map PyStr.ofString) = ["（\r）。"].map PyStr.ofString := by
    decide
  have silent : (PyStr.ofString "（\r）。").all (fun ch => !hasContent ch) = true := by decide
  intro all
  obtain ⟨_,ch,member,content⟩ := all (PyStr.ofString "（\r）。") (by rw [out]; simp)
  have none := List.all_eq_true.mp silent ch member
  rw [hasContent_iff.mpr content] at none
  cases none

end GhostRunner
