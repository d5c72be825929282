import Choreo.Script.Source

/-!
# Lines that are kept

What the source of a script gives may change at any time, and so may the lines be asked for and
invalidated. A script keeps the lines of the text that it has read since it was last invalidated, if
there is one, and reads the source only as long as there is none. `Run.lines_are_kept` tells from the
history what a call for the lines reads and what it answers.
-/

namespace Choreo.Script

variable {s s' : Script} {kept : List String} {cause : SourceError}

/-! ## A single call -/

/-- What a call for the lines reads from the source. Whether it reads it shows in the count. -/
def read? (s : Script) : Option (Except SourceError String) :=
  if s.lines.1.reads = s.reads then none else some s.source

/-- A call gives the lines that are kept, or else reads the source, and of this it keeps a text. -/
theorem lines_cases (s : Script) :
    (∃ kept, s.cached = some kept ∧ s.read? = none ∧ s.lines = (s, .ok kept)) ∨
      (∃ cause, s.cached = none ∧ s.source = .error cause ∧ s.read? = some (.error cause) ∧
        s.lines = ({ s with reads := s.reads + 1 }, .error cause)) ∨
      ∃ text, s.cached = none ∧ s.source = .ok text ∧ s.read? = some (.ok text) ∧
        s.lines = ({ s with reads := s.reads + 1, cached := some (Text.lines text) },
          .ok (Text.lines text)) := by
  have hne : s.reads + 1 ≠ s.reads := Nat.succ_ne_self s.reads
  cases hcached : s.cached with
  | some kept =>
    have hlines : s.lines = (s, .ok kept) := by rw [lines, hcached]
    exact .inl ⟨kept, rfl, by rw [read?, hlines, if_pos rfl], hlines⟩
  | none =>
    cases hsource : s.source with
    | error cause =>
      have hlines : s.lines = ({ s with reads := s.reads + 1 }, .error cause) := by
        simp only [lines, hcached, hsource]
      refine .inr (.inl ⟨cause, rfl, rfl, ?_, by rw [hlines, hsource, hcached]⟩)
      rw [read?, hlines, if_neg hne, hsource]
    | ok text =>
      have hlines : s.lines = ({ s with reads := s.reads + 1, cached := some (Text.lines text) },
          .ok (Text.lines text)) := by
        simp only [lines, hcached, hsource]
      refine .inr (.inr ⟨text, rfl, rfl, ?_, by rw [hlines, hsource]⟩)
      rw [read?, hlines, if_neg hne, hsource]

theorem lines_of_error (hlines : s.lines.2 = .error cause) :
    s.lines.1 = { s with reads := s.reads + 1 } := by
  rcases s.lines_cases with ⟨kept, -, -, heq⟩ | ⟨cause', -, -, -, heq⟩ | ⟨text, -, -, -, heq⟩
  · rw [heq] at hlines
    cases hlines
  · rw [heq]
  · rw [heq] at hlines
    cases hlines

/-! ## Histories -/

/-- What is done with a script. Of a call for the lines it is noted what the source gave, if the call has
read it, and what was answered. -/
inductive Act where
  | change (source : Except SourceError String)
  | invalidate
  | ask (read : Option (Except SourceError String)) (answer : Except SourceError (List String))

namespace Act

def isInvalidate : Act → Bool
  | .invalidate => true
  | _ => false

def isAsk : Act → Bool
  | .ask _ _ => true
  | _ => false

def reads : Act → Bool
  | .ask (some _) _ => true
  | _ => false

def text? : Act → Option String
  | .ask (some (.ok text)) _ => some text
  | _ => none

def change? : Act → Option (Except SourceError String)
  | .change source => some source
  | _ => none

end Act

def call (s : Script) : Act := .ask s.read? s.lines.2

inductive Step (s : Script) : Act → Script → Prop where
  | change (source : Except SourceError String) : Step s (.change source) { s with source }
  | invalidate : Step s .invalidate s.invalidate
  | ask : Step s s.call s.lines.1

inductive Run (id : ScriptId) (name : String) (source : Except SourceError String) :
    List Act → Script → Prop where
  | create : Run id name source [] { id, name, source }
  | step {history : List Act} {s s' : Script} {act : Act}
      (run : Run id name source history s) (hstep : Step s act s') :
      Run id name source (act :: history) s'

def sinceInvalidated (history : List Act) : List Act := history.takeWhile (!·.isInvalidate)

def lastText? (history : List Act) : Option String := history.findSome? Act.text?

/-- What the source gives after a history, if it gave `source` before. -/
def sourceAfter (source : Except SourceError String) (history : List Act) :
    Except SourceError String :=
  (history.findSome? Act.change?).getD source

variable {id : ScriptId} {name : String} {source : Except SourceError String}
variable {history : List Act} {act : Act}

theorem lastText?_cons (act : Act) (history : List Act) :
    lastText? (act :: history) = act.text?.or (lastText? history) := by
  rw [lastText?, List.findSome?_cons]
  cases act.text? <;> rfl

theorem sinceInvalidated_cons (hact : act.isInvalidate = false) (history : List Act) :
    sinceInvalidated (act :: history) = act :: sinceInvalidated history :=
  List.takeWhile_cons_of_pos (by rw [hact]; rfl)

theorem lastText?_of_sinceInvalidated {text : String}
    (htext : lastText? (sinceInvalidated history) = some text) : lastText? history = some text := by
  have hsplit := List.takeWhile_append_dropWhile (p := (!Act.isInvalidate ·)) (l := history)
  rw [← hsplit, lastText?, List.findSome?_append]
  exact congrArg (Option.or · _) htext

theorem lastText?_eq_none_iff : lastText? history = none ↔ ∀ act ∈ history, act.text? = none :=
  List.findSome?_eq_none_iff

/-! ## What a script keeps -/

theorem Step.source_eq (hstep : Step s act s') : s'.source = act.change?.getD s.source := by
  cases hstep with
  | change => rfl
  | invalidate => rfl
  | ask =>
    show s.lines.1.source = s.source
    rcases s.lines_cases with ⟨_, -, -, heq⟩ | ⟨_, -, -, -, heq⟩ | ⟨_, -, -, -, heq⟩ <;> rw [heq]

/-- Lines are kept until they are invalidated. As long as there are none, those of a text that is read
are kept. -/
theorem Step.cached_eq (hstep : Step s act s') :
    s'.cached = if act.isInvalidate then none else s.cached.or (act.text?.map Text.lines) := by
  cases hstep with
  | change => exact Option.or_none.symm
  | invalidate => rfl
  | ask =>
    show s.lines.1.cached = s.cached.or (s.call.text?.map Text.lines)
    unfold call
    rcases s.lines_cases with ⟨kept, hkept, hread, heq⟩ | ⟨cause, hnone, -, hread, heq⟩ |
      ⟨text, hnone, -, hread, heq⟩
    · rw [heq, hread, hkept]
      rfl
    · rw [heq, hread, hnone]
      rfl
    · rw [heq, hread, hnone]
      rfl

theorem Step.text?_eq_none (hstep : Step s act s') (hkept : s.cached = some kept) :
    act.text? = none := by
  cases hstep with
  | change => rfl
  | invalidate => rfl
  | ask =>
    rcases s.lines_cases with ⟨_, -, hread, -⟩ | ⟨_, hnone, -⟩ | ⟨_, hnone, -⟩
    · rw [call, hread]
      rfl
    · exact absurd (hnone.symm.trans hkept) nofun
    · exact absurd (hnone.symm.trans hkept) nofun

theorem Step.reads_eq (hstep : Step s act s') :
    s'.reads = s.reads + if act.reads then 1 else 0 := by
  cases hstep with
  | change => rfl
  | invalidate => rfl
  | ask =>
    show s.lines.1.reads = s.reads + if s.call.reads then 1 else 0
    unfold call
    rcases s.lines_cases with ⟨_, -, hread, heq⟩ | ⟨_, -, -, hread, heq⟩ | ⟨_, -, -, hread, heq⟩ <;>
      (rw [heq, hread]; rfl)

theorem Step.cached_of_ask {read : Option (Except SourceError String)}
    (hstep : Step s (.ask read (.ok kept)) s') : s'.cached = some kept := by
  generalize hact : Act.ask read (.ok kept) = act at hstep
  cases hstep with
  | change => cases hact
  | invalidate => cases hact
  | ask =>
    have hanswer := (Act.ask.inj hact).2
    rcases s.lines_cases with ⟨kept', hkept, -, heq⟩ | ⟨_, -, -, -, heq⟩ | ⟨text, -, -, -, heq⟩
    · rw [heq] at hanswer ⊢
      rw [hkept, Except.ok.inj hanswer]
    · rw [heq] at hanswer
      cases hanswer
    · rw [heq] at hanswer ⊢
      rw [Except.ok.inj hanswer]

theorem Run.source_eq (run : Run id name source history s) :
    s.source = sourceAfter source history := by
  induction run with
  | create => rfl
  | @step history s s' act run hstep ih =>
    rw [hstep.source_eq, ih, sourceAfter, sourceAfter, List.findSome?_cons]
    cases act.change? <;> rfl

/-- The lines that are kept are those of the one text that was read since they were invalidated. -/
theorem Run.cached_eq (run : Run id name source history s) :
    s.cached = (lastText? (sinceInvalidated history)).map Text.lines := by
  induction run with
  | create => rfl
  | @step history s s' act run hstep ih =>
    rw [hstep.cached_eq]
    cases hact : act.isInvalidate with
    | true =>
      rw [sinceInvalidated, List.takeWhile_cons_of_neg (by rw [hact]; decide)]
      rfl
    | false =>
      rw [sinceInvalidated_cons hact, lastText?_cons, if_neg Bool.false_ne_true]
      cases hkept : s.cached with
      | none =>
        rw [hkept, eq_comm, Option.map_eq_none_iff] at ih
        rw [ih, Option.none_or, Option.or_none]
      | some kept => rw [hstep.text?_eq_none hkept, Option.none_or, ← ih, hkept, Option.some_or]

theorem Run.reads_eq (run : Run id name source history s) : s.reads = history.countP Act.reads := by
  induction run with
  | create => rfl
  | step run hstep ih => rw [hstep.reads_eq, ih, List.countP_cons]

theorem Run.cached_of_asked {later earlier : List Act} {read : Option (Except SourceError String)}
    (run : Run id name source (later ++ .ask read (.ok kept) :: earlier) s)
    (hlater : ∀ act ∈ later, act.isInvalidate = false) : s.cached = some kept := by
  induction later generalizing s with
  | nil =>
    cases run with
    | step run hstep => exact hstep.cached_of_ask
  | cons act later ih =>
    cases run with
    | step run hstep =>
      have hkept := ih run fun act' hact' => hlater act' (List.mem_cons_of_mem _ hact')
      rw [hstep.cached_eq, hlater act List.mem_cons_self, hkept, Option.some_or]
      rfl

/-! ## What a call reads and answers -/

theorem Run.read?_eq (run : Run id name source history s) :
    s.read? = if s.cached = none then some (sourceAfter source history) else none := by
  rw [← run.source_eq]
  rcases s.lines_cases with ⟨_, hkept, hread, -⟩ | ⟨_, hnone, hsource, hread, -⟩ |
    ⟨_, hnone, hsource, hread, -⟩
  · rw [hread, hkept, if_neg nofun]
  · rw [hread, hsource, if_pos hnone]
  · rw [hread, hsource, if_pos hnone]

theorem lines_eq_error_iff : s.lines.2 = .error cause ↔ s.read? = some (.error cause) := by
  rcases s.lines_cases with ⟨_, -, hread, heq⟩ | ⟨_, -, -, hread, heq⟩ | ⟨_, -, -, hread, heq⟩ <;>
    simp [hread, heq]

theorem Run.lines_eq_ok (run : Run id name source history s) (hlines : s.lines.2 = .ok kept) :
    (lastText? (s.call :: history)).map Text.lines = some kept := by
  rw [lastText?_cons, call]
  rcases s.lines_cases with ⟨kept', hkept, hread, heq⟩ | ⟨_, -, -, -, heq⟩ | ⟨text, -, -, hread, heq⟩
  · have hlast := run.cached_eq
    rw [hkept, eq_comm, Option.map_eq_some_iff] at hlast
    obtain ⟨text, htext, rfl⟩ := hlast
    rw [heq] at hlines
    rw [hread, lastText?_of_sinceInvalidated htext, ← Except.ok.inj hlines]
    rfl
  · rw [heq] at hlines
    cases hlines
  · rw [heq] at hlines
    rw [hread, ← Except.ok.inj hlines]
    rfl

/-- The first call answers what the source gives. -/
theorem lines_of_not_kept (hnone : s.cached = none) : s.lines.2 = s.source.map Text.lines := by
  rcases s.lines_cases with ⟨_, hkept, -⟩ | ⟨_, -, hsource, -, heq⟩ | ⟨_, -, hsource, -, heq⟩
  · exact absurd (hnone.symm.trans hkept) nofun
  · rw [heq, hsource]
    rfl
  · rw [heq, hsource]
    rfl

theorem lines_of_kept (hkept : s.cached = some kept) : s.lines = (s, .ok kept) := by
  rw [lines, hkept]

/-- A call reads the source, as it is then, if and only if no text was read since the script was created
or last invalidated. It answers with the error if this reading fails, and otherwise with the lines of
the text that was last read. A reading that fails leaves no trace but in the count. Lines that were
answered are answered again until they are invalidated, without another reading, and the first call after
that answers what the source then gives. -/
theorem Run.lines_are_kept (run : Run id name source history s) :
    (s.read? ≠ none ↔ ∀ act ∈ sinceInvalidated history, act.text? = none) ∧
      (∀ read, s.read? = some read → read = sourceAfter source history) ∧
      (∀ cause, s.lines.2 = .error cause ↔ s.read? = some (.error cause)) ∧
      (∀ kept, s.lines.2 = .ok kept →
        (lastText? (s.call :: history)).map Text.lines = some kept) ∧
      (∀ cause, s.read? = some (.error cause) → s.lines.1 = { s with reads := s.reads + 1 }) ∧
      (∀ later read kept earlier, history = later ++ .ask read (.ok kept) :: earlier →
        (∀ act ∈ later, act.isInvalidate = false) → s.lines = (s, .ok kept)) ∧
      ((∀ act ∈ sinceInvalidated history, act.isAsk = false) →
        s.lines.2 = (sourceAfter source history).map Text.lines) ∧
      s.reads = history.countP Act.reads := by
  have hnone : s.cached = none ↔ ∀ act ∈ sinceInvalidated history, act.text? = none := by
    rw [run.cached_eq, Option.map_eq_none_iff, lastText?_eq_none_iff]
  refine ⟨?_, fun read hread => ?_, fun cause => lines_eq_error_iff, fun kept => run.lines_eq_ok,
    fun cause hread => lines_of_error (lines_eq_error_iff.2 hread), ?_, fun hfirst => ?_,
    run.reads_eq⟩
  · rw [← hnone, run.read?_eq]
    simp
  · rw [run.read?_eq] at hread
    split at hread
    · exact (Option.some.inj hread).symm
    · cases hread
  · rintro later read kept earlier rfl hlater
    exact lines_of_kept (run.cached_of_asked hlater)
  · rw [← run.source_eq]
    refine lines_of_not_kept (hnone.2 fun act hact => ?_)
    have hask := hfirst act hact
    cases act with
    | change => rfl
    | invalidate => rfl
    | ask => cases hask

/-- A source that fails at first, is read when it has become a text, and fails again. -/
def failing : List Act :=
  [.change (.error (.other "locked")), .ask (some (.ok "/a\n/b")) (.ok ["/a", "/b"]),
    .change (.ok "/a\n/b"), .ask (some (.error (.missing "a.txt"))) (.error (.missing "a.txt"))]

/-- The failing source is not noticed before the lines are invalidated. -/
def mended : List Act :=
  [.change (.ok "/c\n"), .ask (some (.error (.other "locked"))) (.error (.other "locked")),
    .invalidate, .ask none (.ok ["/a", "/b"])] ++ failing

theorem run_failing :
    Run ⟨"a.txt"⟩ "a" (.error (.missing "a.txt")) failing
      { id := ⟨"a.txt"⟩, name := "a", source := .error (.other "locked"),
        cached := some ["/a", "/b"], reads := 2 } := by
  have hfirst := (@Run.create ⟨"a.txt"⟩ "a" (.error (.missing "a.txt"))).step .ask
  exact ((hfirst.step (.change (.ok "/a\n/b"))).step .ask).step (.change (.error (.other "locked")))

theorem run_mended :
    Run ⟨"a.txt"⟩ "a" (.error (.missing "a.txt")) mended
      { id := ⟨"a.txt"⟩, name := "a", source := .ok "/c\n", reads := 3 } :=
  (((run_failing.step .ask).step .invalidate).step .ask).step (.change (.ok "/c\n"))

theorem lines_are_kept_mended :
    (∃ s, Run ⟨"a.txt"⟩ "a" (.error (.missing "a.txt")) failing s ∧
      s.lines = (s, .ok ["/a", "/b"])) ∧
    ∃ s, Run ⟨"a.txt"⟩ "a" (.error (.missing "a.txt")) mended s ∧
      s.read? = some (.ok "/c\n") ∧ s.lines.2 = .ok ["/c"] ∧ s.reads = 3 := by
  obtain ⟨-, -, -, -, -, hagain, -⟩ := run_failing.lines_are_kept
  obtain ⟨hreads, hcurrent, herror, hlast, -, -, -, hcount⟩ := run_mended.lines_are_kept
  refine ⟨⟨_, run_failing, ?_⟩, _, run_mended, ?_⟩
  · exact hagain [.change (.error (.other "locked"))] _ _ _ rfl (by decide)
  · obtain ⟨read, hread⟩ := Option.ne_none_iff_exists'.1 (hreads.2 (by decide))
    obtain rfl : read = .ok "/c\n" := hcurrent read hread
    refine ⟨hread, ?_, hcount⟩
    cases hanswer : (Script.lines _).2 with
    | error cause =>
      rw [(herror cause).1 hanswer] at hread
      cases hread
    | ok kept =>
      have hkept := hlast kept hanswer
      rw [call, hread] at hkept
      rw [← Option.some.inj hkept]
      exact congrArg Except.ok (by decide)

end Choreo.Script
