import Choreo.Proofs.Playback.Cancellation

/-!
# What a story says about the commands

Which command is executed next is a matter of what has happened before: the last command that was
executed, or a seek that was accepted since. `nextIndex` reads it off the story of a session, and
`Told` says of a story that it keeps to it.
-/

namespace Choreo

variable {settings : Settings} {id : SessionId} {program : Program} {story beats : List Beat}
variable {beat : Beat}

/-! ## What a story says -/

namespace Beat

def executed? (beat : Beat) : Option Nat :=
  match beat.happening with
  | .noted (.reached _ (.executed i)) => some i
  | _ => none

def sent? (beat : Beat) : Option Envelope :=
  match beat.happening with
  | .noted (.sent envelope) => some envelope
  | _ => none

def ends (beat : Beat) : Bool :=
  match beat.happening with
  | .noted (.reached _ .ended) => true
  | _ => false

/-- Nothing that changes what comes next. -/
def Quiet (beat : Beat) : Prop :=
  match beat.happening with
  | .launched _ | .sought _ => False
  | .noted (.sent _) | .noted (.reached _ (.executed _)) | .noted (.reached _ .ended) => False
  | _ => True

end Beat

instance (program : Program) (ignoreLooping : Bool) (c : Command) :
    Decidable (program.goesBack ignoreLooping c) :=
  inferInstanceAs (Decidable (_ ∧ _ ∧ _))

def Start.first (start : Start) (program : Program) : Nat :=
  match start with
  | .top _ => 0
  | .line number => (program.positionOfLine? number).getD 0

def Program.following (program : Program) (ignoreLooping : Bool) (i : Nat) : Nat :=
  match program.commands[i]? with
  | some c => if program.goesBack ignoreLooping c then 0 else i + 1
  | none => i + 1

/-- The position of the command to be executed next, after what has happened. -/
def nextIndex (program : Program) : List Beat → Nat
  | [] => 0
  | beat :: earlier =>
    match beat.happening with
    | .launched start => start.first program
    | .sought line => (program.positionOfLine? line).getD (nextIndex program earlier)
    | .noted (.reached _ (.executed i)) => program.following beat.ignoreLooping i
    | _ => nextIndex program earlier

def InOrder (program : Program) : List Beat → Prop
  | [] => True
  | beat :: earlier =>
    (∀ i, beat.executed? = some i →
      i = nextIndex program earlier ∧ i < program.commands.length) ∧ InOrder program earlier

/-- The positions of the commands that were executed, the first one first. -/
def executedOf (story : List Beat) : List Nat := story.reverse.filterMap Beat.executed?

def sentOf (story : List Beat) : List Envelope := story.reverse.filterMap Beat.sent?

def Program.envelopesAt (program : Program) (host : HostCommands) (id : SessionId) (i : Nat) :
    List Envelope :=
  (program.commands[i]?.toList).flatMap (Command.envelopes host id)

theorem executedOf_append (later earlier : List Beat) :
    executedOf (later ++ earlier) = executedOf earlier ++ executedOf later := by
  rw [executedOf, List.reverse_append, List.filterMap_append]
  rfl

theorem sentOf_append (later earlier : List Beat) :
    sentOf (later ++ earlier) = sentOf earlier ++ sentOf later := by
  rw [sentOf, List.reverse_append, List.filterMap_append]
  rfl

theorem InOrder.of_append {later : List Beat} {earlier : List Beat}
    (h : InOrder program (later ++ beat :: earlier)) {i : Nat} (hi : beat.executed? = some i) :
    i = nextIndex program earlier ∧ i < program.commands.length := by
  induction later with
  | nil => exact h.1 i hi
  | cons _ later ih => exact ih h.2

/-! ## Adding to a story -/

namespace Beat

theorem Quiet.nextIndex (h : beat.Quiet) : nextIndex program (beat :: story) =
    Choreo.nextIndex program story := by
  unfold Quiet at h
  rw [Choreo.nextIndex]
  split at h <;> simp_all

theorem Quiet.executed? (h : beat.Quiet) : beat.executed? = none := by
  unfold Quiet at h
  unfold Beat.executed?
  split at h <;> simp_all

theorem Quiet.sent? (h : beat.Quiet) : beat.sent? = none := by
  unfold Quiet at h
  unfold Beat.sent?
  split at h <;> simp_all

theorem Quiet.ends (h : beat.Quiet) : beat.ends = false := by
  unfold Quiet at h
  unfold Beat.ends
  split at h <;> simp_all

end Beat

theorem following_le {ignoreLooping : Bool} {i : Nat} (hi : i < program.commands.length) :
    program.following ignoreLooping i ≤ program.commands.length := by
  unfold Program.following
  rw [List.getElem?_eq_getElem hi]
  simp only
  split
  · omega
  · omega

theorem positionOfLine?_lt {line target : Nat} (h : program.positionOfLine? line = some target) :
    target < program.commands.length := by
  unfold Program.positionOfLine? at h
  obtain ⟨hlt, -⟩ := List.findIdx?_eq_some_iff_getElem.1 h
  exact hlt

theorem Start.first_le (start : Start) (program : Program) :
    start.first program ≤ program.commands.length := by
  cases start with
  | top filter => exact Nat.zero_le _
  | line number =>
    rw [Start.first]
    cases htarget : program.positionOfLine? number with
    | none => exact Nat.zero_le _
    | some target => exact Nat.le_of_lt (positionOfLine?_lt htarget)

structure Told (program : Program) (settings : Settings) (id : SessionId) (story : List Beat) :
    Prop where
  order : InOrder program story
  bound : nextIndex program story ≤ program.commands.length
  envelopes : sentOf story = (executedOf story).flatMap (program.envelopesAt settings.host id)

namespace Told

theorem cons (h : Told program settings id story) (hexecuted : beat.executed? = none)
    (hsent : beat.sent? = none)
    (hbound : nextIndex program (beat :: story) ≤ program.commands.length) :
    Told program settings id (beat :: story) where
  order := by
    refine ⟨fun i hi => ?_, h.order⟩
    rw [hexecuted] at hi
    cases hi
  bound := hbound
  envelopes := by
    have happend := sentOf_append [beat] story
    have happend' := executedOf_append [beat] story
    simp only [List.singleton_append] at happend happend'
    rw [happend, happend', h.envelopes]
    simp [sentOf, executedOf, hexecuted, hsent]

theorem quiet (h : Told program settings id story) (hquiet : ∀ beat ∈ beats, beat.Quiet) :
    Told program settings id (beats ++ story) ∧
      nextIndex program (beats ++ story) = nextIndex program story := by
  induction beats with
  | nil => exact ⟨h, rfl⟩
  | cons beat beats ih =>
    obtain ⟨htold, hnext⟩ := ih fun beat hbeat => hquiet beat (List.mem_cons_of_mem _ hbeat)
    have hbeat := hquiet beat List.mem_cons_self
    have hnext' : nextIndex program (beat :: (beats ++ story)) = nextIndex program story := by
      rw [hbeat.nextIndex, hnext]
    refine ⟨htold.cons hbeat.executed? hbeat.sent? ?_, hnext'⟩
    rw [hnext']
    exact h.bound

section Sending

variable {time : Nat} {ignoreLooping : Bool} {envelopes : List Envelope}

theorem nextIndex_sent (time : Nat) (ignoreLooping : Bool) (envelopes : List Envelope)
    (story : List Beat) :
    nextIndex program ((envelopes.map fun e => Beat.note time ignoreLooping (.sent e)) ++ story) =
      nextIndex program story := by
  induction envelopes with
  | nil => rfl
  | cons _ _ ih => exact ih

theorem inOrder_sent (h : InOrder program story) :
    InOrder program
      ((envelopes.map fun e => Beat.note time ignoreLooping (.sent e)) ++ story) := by
  induction envelopes with
  | nil => exact h
  | cons _ _ ih => exact ⟨fun i hi => (by cases hi), ih⟩

end Sending

theorem executed (h : Told program settings id story) (time : Nat) (ignoreLooping : Bool)
    {i : Nat} (hi : i = nextIndex program story) (hlt : i < program.commands.length)
    {events : List Event} (hevents : events = .reached id (.executed i) ::
      (program.envelopesAt settings.host id i).map Event.sent) :
    Told program settings id ((events.map (Beat.note time ignoreLooping)).reverse ++ story) ∧
      nextIndex program ((events.map (Beat.note time ignoreLooping)).reverse ++ story) =
        program.following ignoreLooping i := by
  have hstory : (events.map (Beat.note time ignoreLooping)).reverse ++ story =
      ((program.envelopesAt settings.host id i).reverse.map fun e =>
        Beat.note time ignoreLooping (.sent e)) ++
        Beat.note time ignoreLooping (.reached id (.executed i)) :: story := by
    rw [hevents, Beat.notes_sent, List.append_assoc, List.singleton_append]
  have hnext : nextIndex program ((events.map (Beat.note time ignoreLooping)).reverse ++ story) =
      program.following ignoreLooping i := by
    rw [hstory, nextIndex_sent]
    rfl
  refine ⟨⟨?_, ?_, ?_⟩, hnext⟩
  · rw [hstory]
    refine inOrder_sent ⟨fun j hj => ?_, h.order⟩
    cases hj
    exact ⟨hi, hlt⟩
  · rw [hnext]
    exact following_le hlt
  · have hsent : sentOf (events.map (Beat.note time ignoreLooping)).reverse =
        program.envelopesAt settings.host id i := by
      simp only [sentOf, hevents, List.reverse_reverse, List.map_cons, List.map_map,
        List.filterMap_cons, List.filterMap_map]
      exact List.filterMap_some
    have hexecuted : executedOf (events.map (Beat.note time ignoreLooping)).reverse = [i] := by
      simp only [executedOf, hevents, List.reverse_reverse, List.map_cons, List.map_map,
        List.filterMap_cons, List.filterMap_map]
      have hnone : Beat.executed? ∘ Beat.note time ignoreLooping ∘ Event.sent = fun _ => none := rfl
      simp [hnone, Beat.note, Beat.executed?]
    rw [sentOf_append, executedOf_append, hsent, hexecuted, h.envelopes, List.flatMap_append,
      List.flatMap_singleton]

end Told

end Choreo
