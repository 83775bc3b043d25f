import Milo.Reasoning.Action

/-!
# ProviderStreaming — one streamed completion, read chunk by chunk

`assemble_chat_stream`.  The read stops at the first chunk that carries a usage block once a
`finish_reason` was seen; otherwise it goes on to the end.  A block seen before the finish is kept all
the same, and is what a stream that never reports its usage again is measured by.
-/

namespace Milo.Scheduler

/-! ## 1. Chunks -/

section Chunks

variable (U : Type)

structure StreamChoice where
  index : Option ℤ
  /-- `delta.content`, if it is a text. -/
  content : Option (List Char)
  finishReason : Option (List Char)
  usage : Option U
  deriving DecidableEq

structure StreamChunk where
  id : Option (List Char)
  model : Option (List Char)
  usage : Option U
  choices : List (StreamChoice U)
  deriving DecidableEq

/-- How the chunks end: the stream is over, or the transport raised. -/
inductive StreamEnd (E : Type)
  | ended
  | failed (exception : E)

inductive StreamError (E : Type)
  | interrupted
  | raised (exception : E)
  deriving DecidableEq

structure AssembledCompletion where
  content : List Char
  finishReason : List Char
  usage : Option U
  model : Option (List Char)
  id : Option (List Char)
  chunkCount : ℕ
  deriving DecidableEq

/-- What was read so far. -/
structure Reading where
  parts : List (List Char)
  finishReason : Option (List Char)
  usage : Option U
  model : Option (List Char)
  id : Option (List Char)
  chunks : ℕ

end Chunks

variable {U E : Type}

/-- A text that is there and not empty. -/
def stated : Option (List Char) → Option (List Char)
  | none => none
  | some text => if text = [] then none else some text

/-- The text a choice adds to the answer. -/
def StreamChoice.text (choice : StreamChoice U) : Option (List Char) := stated choice.content

/-- The reason it gives for the end. -/
def StreamChoice.reason (choice : StreamChoice U) : Option (List Char) := stated choice.finishReason

/-- `index not in (None, 0)` is a choice of another completion. -/
def StreamChoice.isOurs (choice : StreamChoice U) : Bool :=
  decide (choice.index = none) || decide (choice.index = some 0)

/-! ## 2. Reading -/

/-- One choice; the flag says whether the chunk has carried a usage block. -/
def readChoice (state : Reading U × Bool) (choice : StreamChoice U) : Reading U × Bool :=
  if choice.isOurs then
    ({ state.1 with
        parts := state.1.parts ++ choice.text.toList
        finishReason := choice.reason.or state.1.finishReason
        usage := choice.usage.or state.1.usage },
      state.2 || choice.usage.isSome)
  else state

def readChunk (s : Reading U) (chunk : StreamChunk U) : Reading U × Bool :=
  chunk.choices.foldl readChoice
    ({ s with
        usage := chunk.usage.or s.usage
        model := s.model.or (stated chunk.model)
        id := s.id.or (stated chunk.id)
        chunks := s.chunks + 1 }, chunk.usage.isSome)

def assembled (s : Reading U) (finishReason : List Char) : AssembledCompletion U :=
  ⟨s.parts.flatten, finishReason, s.usage, s.model, s.id, s.chunks⟩

/-- What the reading comes to where no more chunks are read. -/
def conclude (s : Reading U) : StreamEnd E → Except (StreamError E) (AssembledCompletion U)
  | .failed exception => .error (.raised exception)
  | .ended =>
    match s.finishReason with
    | none => .error .interrupted
    | some reason => .ok (assembled s reason)

/-- Read on from what was read so far. -/
def assembleFrom (s : Reading U) (chunks : List (StreamChunk U)) (ending : StreamEnd E) :
    Except (StreamError E) (AssembledCompletion U) :=
  match chunks with
  | [] => conclude s ending
  | chunk :: rest =>
    match (readChunk s chunk).1.finishReason, (readChunk s chunk).2 with
    | some reason, true => .ok (assembled (readChunk s chunk).1 reason)
    | _, _ => assembleFrom (readChunk s chunk).1 rest ending

/-- Consume one streamed chat completion. -/
def assembleChatStream (chunks : List (StreamChunk U)) (ending : StreamEnd E) :
    Except (StreamError E) (AssembledCompletion U) :=
  assembleFrom ⟨[], none, none, none, none, 0⟩ chunks ending

/-! ## 3. What the chunks say -/

def StreamChunk.ours (chunk : StreamChunk U) : List (StreamChoice U) :=
  chunk.choices.filter StreamChoice.isOurs

/-- The index-0 delta contents of some chunks. -/
def contents (chunks : List (StreamChunk U)) : List (List Char) :=
  chunks.flatMap fun chunk => chunk.ours.filterMap StreamChoice.text

/-- Their index-0 finish reasons. -/
def finishes (chunks : List (StreamChunk U)) : List (List Char) :=
  chunks.flatMap fun chunk => chunk.ours.filterMap StreamChoice.reason

/-- Their usage blocks, in the order they arrive. -/
def usageBlocks (chunks : List (StreamChunk U)) : List U :=
  chunks.flatMap fun chunk => chunk.usage.toList ++ chunk.ours.filterMap StreamChoice.usage

/-- The read stops after these chunks: the last one carries a usage block, and a reason was given. -/
def Stops (read : List (StreamChunk U)) : Prop :=
  ∃ earlier chunk, read = earlier ++ [chunk] ∧ usageBlocks [chunk] ≠ [] ∧ finishes read ≠ []

/-- It stops after these chunks and not before. -/
def StopsFirst (read : List (StreamChunk U)) : Prop :=
  Stops read ∧ ∀ shorter, shorter <+: read → Stops shorter → shorter = read

/-- The reading is what these chunks say. -/
structure Summarises (s : Reading U) (read : List (StreamChunk U)) : Prop where
  parts : s.parts = contents read
  finishReason : s.finishReason = (finishes read).getLast?
  usage : s.usage = (usageBlocks read).getLast?

section Read

variable {s : Reading U} {read : List (StreamChunk U)}

theorem getLast?_filterMap_cons {A B : Type} (f : A → Option B) (a : A) (l : List A) :
    ((a :: l).filterMap f).getLast? = (l.filterMap f).getLast?.or (f a) := by
  cases hfirst : f a with
  | none => rw [List.filterMap_cons_none hfirst, Option.or_none]
  | some b =>
    rw [List.filterMap_cons_some hfirst, List.getLast?_cons]
    cases (l.filterMap f).getLast? with
    | none => rfl
    | some last => rfl

theorem readChoice_foldl (choices : List (StreamChoice U)) :
    ∀ (s : Reading U) (flag : Bool),
      let ours := choices.filter StreamChoice.isOurs
      let next := choices.foldl readChoice (s, flag)
      next.1.parts = s.parts ++ ours.filterMap StreamChoice.text ∧
        next.1.finishReason = (ours.filterMap StreamChoice.reason).getLast?.or s.finishReason ∧
        next.1.usage = (ours.filterMap StreamChoice.usage).getLast?.or s.usage ∧
        (next.2 = true ↔ flag = true ∨ ours.filterMap StreamChoice.usage ≠ []) := by
  induction choices with
  | nil => exact fun s flag => ⟨(List.append_nil _).symm, rfl, rfl, by simp⟩
  | cons choice rest ih =>
    intro s flag
    dsimp only
    rw [List.foldl_cons]
    by_cases hours : choice.isOurs = true
    · have hread : readChoice (s, flag) choice =
          ({ s with
              parts := s.parts ++ choice.text.toList
              finishReason := choice.reason.or s.finishReason
              usage := choice.usage.or s.usage },
            flag || choice.usage.isSome) := if_pos hours
      rw [hread, List.filter_cons_of_pos hours]
      obtain ⟨hparts, hfinish, husage, hflag⟩ := ih
        { s with
          parts := s.parts ++ choice.text.toList
          finishReason := choice.reason.or s.finishReason
          usage := choice.usage.or s.usage } (flag || choice.usage.isSome)
      rw [hparts, hfinish, husage, hflag, getLast?_filterMap_cons, getLast?_filterMap_cons,
        Option.or_assoc, Option.or_assoc]
      refine ⟨?_, rfl, rfl, ?_⟩
      · cases htext : choice.text with
        | none => simp [htext]
        | some text => simp [htext]
      · cases hblock : choice.usage with
        | none => simp [hblock]
        | some block => simp [hblock]
    · have hread : readChoice (s, flag) choice = (s, flag) := if_neg hours
      rw [hread, List.filter_cons_of_neg hours]
      exact ih s flag

theorem usageBlocks_append (l l' : List (StreamChunk U)) :
    usageBlocks (l ++ l') = usageBlocks l ++ usageBlocks l' := List.flatMap_append

theorem finishes_append (l l' : List (StreamChunk U)) : finishes (l ++ l') = finishes l ++ finishes l' :=
  List.flatMap_append

theorem contents_append (l l' : List (StreamChunk U)) : contents (l ++ l') = contents l ++ contents l' :=
  List.flatMap_append

/-- One more chunk, and whether it carries a usage block. -/
theorem Summarises.readChunk (h : Summarises s read) (chunk : StreamChunk U) :
    Summarises (readChunk s chunk).1 (read ++ [chunk]) ∧
      ((Scheduler.readChunk s chunk).2 = true ↔ usageBlocks [chunk] ≠ []) := by
  have hblocks : usageBlocks [chunk] = chunk.usage.toList ++ chunk.ours.filterMap StreamChoice.usage :=
    List.flatMap_singleton _ _
  have hfinishes : finishes [chunk] = chunk.ours.filterMap StreamChoice.reason := List.flatMap_singleton _ _
  have hcontents : contents [chunk] = chunk.ours.filterMap StreamChoice.text := List.flatMap_singleton _ _
  obtain ⟨hparts, hfinish, husage, hflag⟩ := readChoice_foldl chunk.choices
    { s with
      usage := chunk.usage.or s.usage
      model := s.model.or (stated chunk.model)
      id := s.id.or (stated chunk.id)
      chunks := s.chunks + 1 } chunk.usage.isSome
  refine ⟨⟨?_, ?_, ?_⟩, ?_⟩
  · rw [contents_append, hcontents, ← h.parts]
    exact hparts
  · rw [finishes_append, List.getLast?_append, hfinishes, ← h.finishReason]
    exact hfinish
  · rw [usageBlocks_append, List.getLast?_append, hblocks, List.getLast?_append, Option.or_assoc,
      ← h.usage]
    refine husage.trans ?_
    cases chunk.usage with
    | none => rfl
    | some block => rfl
  · refine hflag.trans ?_
    rw [hblocks]
    cases chunk.usage with
    | none => simp [StreamChunk.ours]
    | some block => simp

/-! ## 4. Where the read stops -/

variable {chunk : StreamChunk U}

theorem stops_snoc : Stops (read ++ [chunk]) ↔ usageBlocks [chunk] ≠ [] ∧ finishes (read ++ [chunk]) ≠ [] := by
  constructor
  · rintro ⟨earlier, last, heq, hblock, hfinish⟩
    have hlast : chunk = last := (List.concat_inj.mp (by simpa using heq)).2
    rw [hlast]
    exact ⟨hblock, hlast ▸ hfinish⟩
  · exact fun h => ⟨read, chunk, rfl, h.1, h.2⟩

theorem not_stops_nil : ¬Stops ([] : List (StreamChunk U)) := by
  rintro ⟨earlier, last, heq, _⟩
  exact absurd heq.symm (List.concat_ne_nil last earlier ∘ by simp)

/-- A chunk after which the read stops decides the answer. -/
theorem assembleFrom_stop (h : Summarises s read) (hstop : Stops (read ++ [chunk])) :
    ∃ reason, ∀ rest (ending : StreamEnd E),
      assembleFrom s (chunk :: rest) ending = .ok (assembled (Scheduler.readChunk s chunk).1 reason) := by
  have hnext := h.readChunk chunk
  have hstop := stops_snoc.mp hstop
  have hmeasured := hnext.2.mpr hstop.1
  cases hreason : (Scheduler.readChunk s chunk).1.finishReason with
  | none =>
    rw [hnext.1.finishReason, List.getLast?_eq_none_iff] at hreason
    exact absurd hreason hstop.2
  | some reason =>
    refine ⟨reason, fun rest ending => ?_⟩
    unfold assembleFrom
    rw [hreason, hmeasured]

theorem assembleFrom_on (h : Summarises s read) (hgoes : ¬Stops (read ++ [chunk])) (rest : List (StreamChunk U))
    (ending : StreamEnd E) :
    assembleFrom s (chunk :: rest) ending = assembleFrom (Scheduler.readChunk s chunk).1 rest ending := by
  have hnext := h.readChunk chunk
  have hgoes : ¬((Scheduler.readChunk s chunk).2 = true ∧ (Scheduler.readChunk s chunk).1.finishReason ≠ none) := by
    rw [stops_snoc, ← hnext.2] at hgoes
    rw [hnext.1.finishReason, Ne, List.getLast?_eq_none_iff]
    exact hgoes
  conv_lhs => unfold assembleFrom
  split
  · rename_i hreason hmeasured
    exact absurd ⟨hmeasured, by rw [hreason]; exact Option.some_ne_none _⟩ hgoes
  · rfl

/-- The read stops after some of the chunks and no longer depends on the others, or it reads all. -/
theorem assembleFrom_cases (chunks : List (StreamChunk U)) :
    ∀ (s : Reading U) (read : List (StreamChunk U)), Summarises s read →
      (∃ more rest s' reason, chunks = more ++ rest ∧ more ≠ [] ∧ Stops (read ++ more) ∧
        (∀ shorter, shorter <+: more → shorter ≠ [] → Stops (read ++ shorter) → shorter = more) ∧
        Summarises s' (read ++ more) ∧
        ∀ rest' (ending : StreamEnd E), assembleFrom s (more ++ rest') ending = .ok (assembled s' reason)) ∨
      (∀ part, part <+: chunks → part ≠ [] → ¬Stops (read ++ part)) ∧
        ∃ s', Summarises s' (read ++ chunks) ∧
          ∀ ending : StreamEnd E, assembleFrom s chunks ending = conclude s' ending := by
  induction chunks with
  | nil =>
    intro s read h
    refine Or.inr ⟨?_, s, ?_, fun ending => rfl⟩
    · exact fun part hpart hne => absurd (List.prefix_nil.mp hpart) hne
    · rw [List.append_nil]
      exact h
  | cons chunk rest ih =>
    intro s read h
    have hnext := h.readChunk chunk
    by_cases hstop : Stops (read ++ [chunk])
    · obtain ⟨reason, hanswer⟩ := assembleFrom_stop (E := E) h hstop
      refine Or.inl ⟨[chunk], rest, _, reason, rfl, List.cons_ne_nil _ _, hstop, ?_, hnext.1, hanswer⟩
      intro shorter hshorter hne _
      rcases List.prefix_cons_iff.mp hshorter with rfl | ⟨t, rfl, ht⟩
      · exact absurd rfl hne
      · rw [List.prefix_nil.mp ht]
    · have hassoc : ∀ l, read ++ [chunk] ++ l = read ++ chunk :: l := fun l => List.append_cons _ _ _ ▸ rfl
      rcases ih _ _ hnext.1 with ⟨more, rest', s', reason, heq, hne, hstops, hfirst, hsum, hanswer⟩ | hall
      · refine Or.inl ⟨chunk :: more, rest', s', reason, by rw [heq]; rfl, List.cons_ne_nil _ _, ?_, ?_, ?_, ?_⟩
        · rw [← hassoc]
          exact hstops
        · intro shorter hshorter hne' hshort
          rcases List.prefix_cons_iff.mp hshorter with rfl | ⟨t, rfl, ht⟩
          · exact absurd rfl hne'
          · by_cases htnil : t = []
            · rw [htnil] at hshort
              exact absurd hshort hstop
            · rw [← hassoc] at hshort
              rw [hfirst t ht htnil hshort]
        · rw [← hassoc]
          exact hsum
        · intro rest'' ending
          rw [List.cons_append, assembleFrom_on h hstop]
          exact hanswer rest'' ending
      · obtain ⟨hnone, s', hsum, hanswer⟩ := hall
        refine Or.inr ⟨?_, s', ?_, ?_⟩
        · intro part hpart hne
          rcases List.prefix_cons_iff.mp hpart with rfl | ⟨t, rfl, ht⟩
          · exact absurd rfl hne
          · by_cases htnil : t = []
            · rw [htnil]
              exact hstop
            · rw [← hassoc]
              exact hnone t ht htnil
        · rw [← hassoc]
          exact hsum
        · intro ending
          rw [assembleFrom_on h hstop]
          exact hanswer ending

end Read

/-! ## 5. From the finish on -/

/-- No index-0 choice of the chunk gives a reason. -/
def unfinished (chunk : StreamChunk U) : Bool := (finishes [chunk]).isEmpty

def beforeFinish (chunks : List (StreamChunk U)) : List (StreamChunk U) := chunks.takeWhile unfinished

/-- The chunk that finishes and those after it. -/
def sinceFinish (chunks : List (StreamChunk U)) : List (StreamChunk U) := chunks.dropWhile unfinished

section Finish

variable {chunks read : List (StreamChunk U)}

theorem usageBlocks_split (chunks : List (StreamChunk U)) :
    usageBlocks chunks = usageBlocks (beforeFinish chunks) ++ usageBlocks (sinceFinish chunks) := by
  rw [← usageBlocks_append]
  exact congrArg usageBlocks List.takeWhile_append_dropWhile.symm

theorem sinceFinish_eq_nil : sinceFinish chunks = [] ↔ finishes chunks = [] := by
  unfold sinceFinish
  rw [List.dropWhile_eq_nil_iff]
  constructor
  · intro h
    apply List.flatMap_eq_nil_iff.mpr
    intro chunk hchunk
    have hnone := List.isEmpty_iff.mp (h chunk hchunk)
    rwa [finishes, List.flatMap_singleton] at hnone
  · intro h chunk hchunk
    apply List.isEmpty_iff.mpr
    rw [finishes, List.flatMap_singleton]
    exact List.flatMap_eq_nil_iff.mp h chunk hchunk

/-- More chunks come after the finish, once there is one. -/
theorem sinceFinish_append (h : finishes read ≠ []) (rest : List (StreamChunk U)) :
    sinceFinish (read ++ rest) = sinceFinish read ++ rest := by
  have hne : sinceFinish read ≠ [] := fun hnil => h (sinceFinish_eq_nil.mp hnil)
  unfold sinceFinish at hne ⊢
  rw [List.dropWhile_append]
  split
  · rename_i hempty
    exact absurd (List.isEmpty_iff.mp hempty) hne
  · rfl

/-- Where the read stops, a block arrived from the finish on. -/
theorem Stops.usageBlocks_ne_nil (h : Stops read) : usageBlocks (sinceFinish read) ≠ [] := by
  obtain ⟨earlier, chunk, rfl, hblock, hfinish⟩ := h
  by_cases hearlier : finishes earlier = []
  · have hchunk : finishes [chunk] ≠ [] := by
      rw [finishes_append, hearlier, List.nil_append] at hfinish
      exact hfinish
    have hsince : sinceFinish (earlier ++ [chunk]) = [chunk] := by
      have hnone := sinceFinish_eq_nil.mpr hearlier
      unfold sinceFinish at hnone ⊢
      rw [List.dropWhile_append, if_pos (List.isEmpty_iff.mpr hnone), List.dropWhile_cons_of_neg]
      exact fun hunfinished => hchunk (List.isEmpty_iff.mp hunfinished)
    rw [hsince]
    exact hblock
  · rw [sinceFinish_append hearlier, usageBlocks_append]
    exact fun hnil => hblock (List.append_eq_nil_iff.mp hnil).2

/-- The read does not stop exactly if no block arrives from the finish on. -/
theorem not_stops_iff :
    (∀ part, part <+: chunks → ¬Stops part) ↔ usageBlocks (sinceFinish chunks) = [] := by
  constructor
  · intro h
    by_contra hne
    obtain ⟨block, hblock⟩ := List.exists_mem_of_ne_nil _ hne
    obtain ⟨chunk, hchunk, hin⟩ := List.mem_flatMap.mp hblock
    obtain ⟨a, b, hsince⟩ := List.append_of_mem hchunk
    have hchunks : chunks = beforeFinish chunks ++ (a ++ [chunk]) ++ b := by
      rw [List.append_assoc, List.append_assoc, List.singleton_append, ← hsince]
      exact List.takeWhile_append_dropWhile.symm
    have hfinish : finishes (beforeFinish chunks ++ (a ++ [chunk])) ≠ [] := by
      rw [finishes_append]
      intro hnone
      have hpart : finishes (a ++ [chunk]) = [] := (List.append_eq_nil_iff.mp hnone).2
      have hhead := List.head?_dropWhile_not unfinished chunks
      unfold sinceFinish at hsince
      rw [hsince, List.append_cons] at hhead
      cases hlist : a ++ [chunk] with
      | nil => exact absurd hlist (by simp)
      | cons first l =>
        rw [hlist] at hhead hpart
        have hfirst : finishes [first] = [] :=
          (List.append_eq_nil_iff.mp ((finishes_append [first] l).symm.trans hpart)).1
        have hfinished : unfinished first = false := hhead
        rw [unfinished, hfirst] at hfinished
        cases hfinished
    apply h _ ⟨b, hchunks.symm⟩
    refine ⟨beforeFinish chunks ++ a, chunk, (List.append_assoc _ _ _).symm, ?_, hfinish⟩
    intro hnil
    have hmem : block ∈ usageBlocks [chunk] := List.mem_flatMap.mpr ⟨chunk, List.mem_singleton_self _, hin⟩
    rw [hnil] at hmem
    cases hmem
  · rintro h part ⟨rest, rfl⟩ hstops
    have hpart := hstops.usageBlocks_ne_nil
    obtain ⟨_, _, _, _, hfinish⟩ := hstops
    rw [sinceFinish_append hfinish, usageBlocks_append] at h
    exact hpart (List.append_eq_nil_iff.mp h).1

end Finish

/-! ## 6. What the answer is measured by -/

/-- The usage is a block that arrived from the finish on, or there was none. -/
def Measured (read : List (StreamChunk U)) : Option U → Prop
  | some block => block ∈ usageBlocks (sinceFinish read)
  | none => usageBlocks (sinceFinish read) = []

/-- The answer is what was read up to where the read stopped, and the chunks after that do not matter. -/
def AnswersRead (chunks : List (StreamChunk U)) (ending : StreamEnd E) (answer : AssembledCompletion U) :
    Prop :=
  ∃ read rest, chunks = read ++ rest ∧ answer.content = (contents read).flatten ∧
    Measured read answer.usage ∧
    ((StopsFirst read ∧ ∀ rest' (ending' : StreamEnd E),
        assembleChatStream (read ++ rest') ending' = .ok answer) ∨
      rest = [] ∧ ending = .ended ∧ ∀ part, part <+: read → ¬Stops part)

/-- A stream is answered from the finish on, or raises: where the transport fails before the read has
    stopped, or the stream is over and never finished. -/
structure ReadsStream (chunks : List (StreamChunk U)) (ending : StreamEnd E) : Prop where
  raises : (∃ e, assembleChatStream chunks ending = .error e) ↔
    (∀ part, part <+: chunks → ¬Stops part) ∧ ((∃ exception, ending = .failed exception) ∨ finishes chunks = [])
  answers : ∀ answer, assembleChatStream chunks ending = .ok answer → AnswersRead chunks ending answer

section Measured

variable {chunks read : List (StreamChunk U)} {ending : StreamEnd E}

theorem summarises_nil : Summarises (⟨[], none, none, none, none, 0⟩ : Reading U) [] := ⟨rfl, rfl, rfl⟩

/-- The last block of chunks whose finish is followed by one arrived from the finish on. -/
theorem measured_getLast? (h : usageBlocks (sinceFinish read) ≠ []) :
    Measured read (usageBlocks read).getLast? := by
  rw [usageBlocks_split, List.getLast?_append]
  cases hlast : (usageBlocks (sinceFinish read)).getLast? with
  | none => exact absurd (List.getLast?_eq_none_iff.mp hlast) h
  | some block => exact List.mem_of_getLast? hlast

/-- A stream whose read stops is answered as it should be. -/
theorem readsStream_of_stops {read rest : List (StreamChunk U)} {s : Reading U} {reason : List Char}
    (hstops : Stops read) (hfirst : ∀ shorter, shorter <+: read → Stops shorter → shorter = read)
    (hsum : Summarises s read)
    (hanswer : ∀ rest' (ending' : StreamEnd E),
      assembleChatStream (read ++ rest') ending' = .ok (assembled s reason)) :
    ReadsStream (read ++ rest) ending where
  raises := by
    constructor
    · rintro ⟨e, he⟩
      rw [hanswer] at he
      cases he
    · exact fun h => absurd hstops (h.1 read (List.prefix_append read rest))
  answers := by
    intro answer hok
    rw [hanswer] at hok
    cases hok
    refine ⟨read, rest, rfl, ?_, ?_, Or.inl ⟨⟨hstops, hfirst⟩, hanswer⟩⟩
    · show s.parts.flatten = _
      rw [hsum.parts]
    · show Measured read s.usage
      rw [hsum.usage]
      exact measured_getLast? hstops.usageBlocks_ne_nil

/-- A stream that finishes and is measured from then on is read as it should be; one that is not
    measured any more is so only if no block came before the finish. -/
theorem readsStream_iff (chunks : List (StreamChunk U)) (ending : StreamEnd E) :
    ReadsStream chunks ending ↔
      (∃ exception, ending = .failed exception) ∨ finishes chunks = [] ∨
        usageBlocks (beforeFinish chunks) = [] ∨ usageBlocks (sinceFinish chunks) ≠ [] := by
  rcases assembleFrom_cases (E := E) chunks _ [] summarises_nil with
    ⟨read, rest, s, reason, rfl, _, hstops, hfirst, hsum, hanswer⟩ | ⟨hnone, s, hsum, hanswer⟩
  · have hreads : ReadsStream (read ++ rest) ending := by
      apply readsStream_of_stops hstops _ hsum hanswer
      intro shorter hshorter hstops'
      apply hfirst shorter hshorter _ hstops'
      exact fun hnil => not_stops_nil (hnil ▸ hstops')
    have hblocks : usageBlocks (sinceFinish (read ++ rest)) ≠ [] := by
      intro hnil
      exact not_stops_iff.mpr hnil read (List.prefix_append read rest) hstops
    exact ⟨fun _ => Or.inr (Or.inr (Or.inr hblocks)), fun _ => hreads⟩
  · rw [List.nil_append] at hsum
    have hnever : ∀ part, part <+: chunks → ¬Stops part := by
      intro part hpart hstops
      exact hnone part hpart (fun hnil => not_stops_nil (hnil ▸ hstops)) hstops
    have hsince := not_stops_iff.mp hnever
    have husage : s.usage = (usageBlocks (beforeFinish chunks)).getLast? := by
      rw [hsum.usage, usageBlocks_split, hsince, List.append_nil]
    cases ending with
    | failed exception =>
      have hraised := hanswer (.failed exception)
      refine iff_of_true ⟨?_, ?_⟩ (Or.inl ⟨exception, rfl⟩)
      · exact ⟨fun _ => ⟨hnever, Or.inl ⟨exception, rfl⟩⟩, fun _ => ⟨_, hraised⟩⟩
      · intro answer hok
        rw [show assembleChatStream chunks (.failed exception) = _ from hraised] at hok
        cases hok
    | ended =>
      have hended := hanswer .ended
      cases hreason : s.finishReason with
      | none =>
        have hfinish : finishes chunks = [] := List.getLast?_eq_none_iff.mp (hsum.finishReason ▸ hreason)
        have hraised : assembleChatStream chunks (.ended : StreamEnd E) = .error .interrupted := by
          refine hended.trans ?_
          unfold conclude
          rw [hreason]
        refine iff_of_true ⟨?_, ?_⟩ (Or.inr (Or.inl hfinish))
        · exact ⟨fun _ => ⟨hnever, Or.inr hfinish⟩, fun _ => ⟨_, hraised⟩⟩
        · intro answer hok
          rw [hraised] at hok
          cases hok
      | some reason =>
        have hfinish : finishes chunks ≠ [] := by
          intro hnil
          rw [hsum.finishReason, hnil] at hreason
          cases hreason
        have hok : assembleChatStream chunks (.ended : StreamEnd E) = .ok (assembled s reason) := by
          refine hended.trans ?_
          unfold conclude
          rw [hreason]
        constructor
        · intro hreads
          obtain ⟨read, rest, hsplit, _, hmeasured, hstop⟩ := hreads.answers _ hok
          rcases hstop with ⟨hfirst, _⟩ | ⟨hrest, _, _⟩
          · exact absurd hfirst.1 (hnever read ⟨rest, hsplit.symm⟩)
          · rw [hrest, List.append_nil] at hsplit
            have hmeasured : Measured chunks s.usage := hsplit ▸ hmeasured
            cases hblock : s.usage with
            | none => exact Or.inr (Or.inr (Or.inl (List.getLast?_eq_none_iff.mp (husage ▸ hblock))))
            | some block =>
              rw [hblock] at hmeasured
              have hmem : block ∈ usageBlocks (sinceFinish chunks) := hmeasured
              rw [hsince] at hmem
              cases hmem
        · intro hcondition
          have hbefore : usageBlocks (beforeFinish chunks) = [] := by
            rcases hcondition with ⟨exception, hfailed⟩ | hnil | hbefore | hne
            · cases hfailed
            · exact absurd hnil hfinish
            · exact hbefore
            · exact absurd hsince hne
          constructor
          · constructor
            · rintro ⟨e, he⟩
              rw [hok] at he
              cases he
            · rintro ⟨_, ⟨exception, hfailed⟩ | hnil⟩
              · cases hfailed
              · exact absurd hnil hfinish
          · intro answer hanswered
            rw [hok] at hanswered
            cases hanswered
            refine ⟨chunks, [], (List.append_nil _).symm, ?_, ?_, Or.inr ⟨rfl, rfl, hnever⟩⟩
            · show s.parts.flatten = _
              rw [hsum.parts]
            · show Measured chunks s.usage
              rw [husage, hbefore]
              exact hsince

end Measured

/-! ### A stream measured only before it finished -/

/-- A chunk with one choice. -/
def oneChoice (content finishReason : String) (usage : Option ℕ) : StreamChunk ℕ :=
  ⟨none, none, usage, [⟨some 0, some content.toList, some finishReason.toList, none⟩]⟩

/-- A running count, and then the finish without one. -/
def earlyUsage : List (StreamChunk ℕ) := [oneChoice "a" "" (some 1), oneChoice "b" "stop" none]

/-- The running count is returned as the usage of the whole answer. -/
theorem earlyUsage_measured :
    ¬∀ (chunks : List (StreamChunk ℕ)) (ending : StreamEnd Unit), ReadsStream chunks ending := by
  intro h
  have hcondition := (readsStream_iff earlyUsage (.ended : StreamEnd Unit)).mp (h earlyUsage .ended)
  rcases hcondition with ⟨exception, hfailed⟩ | hnil | hbefore | hsince
  · cases hfailed
  · exact absurd hnil (by decide)
  · exact absurd hbefore (by decide)
  · exact absurd hsince (by decide)

end Milo.Scheduler
