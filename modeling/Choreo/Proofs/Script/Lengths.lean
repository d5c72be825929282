import Choreo.Proofs.Script.Layout
import Mathlib.Algebra.Order.BigOperators.Group.List
import Mathlib.Algebra.Order.Ring.Nat

/-!
# How long programs take

A command that the player does not stop at takes no time, whatever its wait is. So what a program says
about the length of its regions, and its own length, is what playing them takes only if no such command
has a wait, and if no sum is too long to be told.
-/

namespace Choreo

def Command.held (c : Command) : Nat := if c.directive.skipsWait then 0 else c.wait.nanos

def Command.heldFor (c : Command) (ping : Duration) : Nat :=
  if c.directive.skipsWait then 0 else (c.wait - ping).nanos

theorem Command.heldFor_le (c : Command) (ping : Duration) : c.heldFor ping ≤ c.wait.nanos := by
  unfold heldFor
  split
  · exact Nat.zero_le _
  · rw [Duration.nanos_sub]
    exact Nat.sub_le _ _

namespace Program

variable {program : Program} {i r : Nat} {c : Command}

def heldBefore (program : Program) (i : Nat) : Nat :=
  ((program.commands.take i).map Command.held).sum

/-- The nanoseconds that the commands of a region and of those before it take. -/
def heldThrough (program : Program) (r : Nat) : Nat :=
  ((program.commands.filter (·.region ≤ r)).map Command.held).sum

def heldInAll (program : Program) : Nat := (program.commands.map Command.held).sum

theorem heldBefore_succ (hcommand : program.commands[i]? = some c) :
    program.heldBefore (i + 1) = program.heldBefore i + c.held := by
  unfold heldBefore
  rw [List.take_add_one, hcommand, List.map_append, List.sum_append, Option.toList_some,
    List.map_singleton, List.sum_singleton]

theorem heldBefore_of_length_le (h : program.commands.length ≤ i) :
    program.heldBefore i = program.heldInAll := by
  rw [heldBefore, List.take_of_length_le h, heldInAll]

theorem heldBefore_le (program : Program) (i : Nat) : program.heldBefore i ≤ program.heldInAll :=
  ((List.take_sublist i program.commands).map Command.held).sum_le_sum fun _ _ => Nat.zero_le _

theorem filter_take_eq (hbefore : ∀ j < i, ∀ d, program.commands[j]? = some d → d.region ≤ r) :
    (program.commands.take i).filter (·.region ≤ r) = program.commands.take i := by
  rw [List.filter_eq_self]
  intro d hd
  obtain ⟨j, hj⟩ := List.getElem?_of_mem hd
  rw [List.getElem?_take] at hj
  split at hj
  · next hlt => exact decide_eq_true (hbefore j hlt d hj)
  · cases hj

/-- The commands before a position take no longer than the regions that they belong to. -/
theorem heldBefore_le_heldThrough
    (hbefore : ∀ j < i, ∀ d, program.commands[j]? = some d → d.region ≤ r) :
    program.heldBefore i ≤ program.heldThrough r := by
  have htake := filter_take_eq hbefore
  unfold heldBefore heldThrough
  rw [← htake]
  exact (((List.take_sublist i _).filter _).map _).sum_le_sum fun _ _ => Nat.zero_le _

/-- Before the first command beyond a region are those of the region and of the regions before it. -/
theorem Blocks.heldBefore_eq (h : program.Blocks)
    (hbefore : ∀ j < i, ∀ d, program.commands[j]? = some d → d.region ≤ r)
    (hbeyond : ∀ d, program.commands[i]? = some d → r < d.region) :
    program.heldBefore i = program.heldThrough r := by
  have htake := filter_take_eq hbefore
  have hdrop : (program.commands.drop i).filter (·.region ≤ r) = [] := by
    rw [List.filter_eq_nil_iff]
    intro d hd
    obtain ⟨j, hj⟩ := List.getElem?_of_mem hd
    rw [List.getElem?_drop] at hj
    obtain ⟨hlt, rfl⟩ := List.getElem?_eq_some_iff.1 hj
    have hfirst := hbeyond _ (List.getElem?_eq_getElem (by omega : i < program.commands.length))
    have hmono := List.pairwise_iff_getElem.1 h.mono
    rcases Nat.eq_zero_or_pos j with rfl | hpos
    · simpa using hfirst
    · have hle := hmono i (i + j) (by omega) hlt (by omega)
      simp only [decide_eq_true_eq]
      omega
  unfold heldBefore heldThrough
  rw [← List.take_append_drop i program.commands, List.filter_append, List.take_append_drop, htake,
    hdrop, List.append_nil]

/-! ### What is written about a region -/

/-- The nanoseconds of the waits of the commands before a position, whether they are kept or not. -/
def waitBefore (program : Program) (i : Nat) : Nat :=
  ((program.commands.take i).map (·.wait.nanos)).sum

theorem waitBefore_succ (hcommand : program.commands[i]? = some c) :
    program.waitBefore (i + 1) = program.waitBefore i + c.wait.nanos := by
  unfold waitBefore
  rw [List.take_add_one, hcommand, List.map_append, List.sum_append, Option.toList_some,
    List.map_singleton, List.sum_singleton]

/-- From the first command of a region to one beyond it, there is the whole block of the region. -/
theorem Blocks.commandsOf_sublist (h : program.Blocks) {n : Nat}
    (hfirst : ∀ j < i, ∀ d, program.commands[j]? = some d → d.region ≠ c.region)
    (hcommand : program.commands[i]? = some c) (hlt : i < n)
    (hbeyond : ∀ d, program.commands[n]? = some d → d.region ≠ c.region) :
    (program.commandsOf c.region).Sublist ((program.commands.take n).drop i) := by
  obtain ⟨hi, rfl⟩ := List.getElem?_eq_some_iff.1 hcommand
  have hmono := List.pairwise_iff_getElem.1 h.mono
  have hbefore : (program.commands.take i).filter (·.region == program.commands[i].region) = [] := by
    rw [List.filter_eq_nil_iff]
    intro d hd
    obtain ⟨j, hj⟩ := List.getElem?_of_mem hd
    rw [List.getElem?_take] at hj
    split at hj
    · next hlt => simpa using hfirst j hlt d hj
    · cases hj
  have hafter : (program.commands.drop n).filter (·.region == program.commands[i].region) = [] := by
    rw [List.filter_eq_nil_iff]
    intro d hd
    obtain ⟨j, hj⟩ := List.getElem?_of_mem hd
    rw [List.getElem?_drop] at hj
    obtain ⟨hlt', rfl⟩ := List.getElem?_eq_some_iff.1 hj
    have hn : n < program.commands.length := by omega
    have hne := hbeyond _ (List.getElem?_eq_getElem hn)
    have hle := hmono i n hi hn hlt
    rcases Nat.eq_zero_or_pos j with rfl | hpos
    · simpa using hne
    · have hle' := hmono n (n + j) hn hlt' (by omega)
      rw [beq_iff_eq]
      omega
  have hsplit : program.commands =
      (program.commands.take i ++ (program.commands.take n).drop i) ++ program.commands.drop n := by
    have htake : (program.commands.take n).take i = program.commands.take i := by
      rw [List.take_take, Nat.min_eq_left hlt.le]
    rw [← htake, List.take_append_drop, List.take_append_drop]
  have hblock := congrArg (List.filter (·.region == program.commands[i].region)) hsplit
  rw [List.filter_append, List.filter_append, hbefore, hafter, List.nil_append,
    List.append_nil] at hblock
  unfold commandsOf
  rw [hblock]
  exact List.filter_sublist

/-- The waits from the first command of a region to one beyond it are those of the region at least. -/
theorem Blocks.waitBefore_add_le (h : program.Blocks) {n : Nat} {region : Region}
    (hregion : program.regions[c.region]? = some region)
    (hfirst : ∀ j < i, ∀ d, program.commands[j]? = some d → d.region ≠ c.region)
    (hcommand : program.commands[i]? = some c) (hlt : i < n)
    (hbeyond : ∀ d, program.commands[n]? = some d → d.region ≠ c.region) :
    program.waitBefore i + region.wait.nanos ≤ program.waitBefore n := by
  have htake : (program.commands.take n).take i = program.commands.take i := by
    rw [List.take_take, Nat.min_eq_left hlt.le]
  have hblock := (h.commandsOf_sublist hfirst hcommand hlt hbeyond).map (·.wait.nanos)
  calc
    program.waitBefore i + region.wait.nanos ≤
        program.waitBefore i + ((program.commandsOf c.region).map (·.wait.nanos)).sum := by
      rw [(h.covers c.region region hregion).wait]
      exact Nat.add_le_add_left (Nat.min_le_left _ _) _
    _ ≤ program.waitBefore i + (((program.commands.take n).drop i).map (·.wait.nanos)).sum :=
      Nat.add_le_add_left (hblock.sum_le_sum fun _ _ => Nat.zero_le _) _
    _ = program.waitBefore n := by
      unfold waitBefore
      rw [← htake, ← List.sum_append, ← List.map_append, List.take_append_drop]

/-! ## What a program says about itself -/

/-- What a program says about the length of a region and of those before it. -/
def waitThrough (program : Program) (r : Nat) : Duration :=
  .sum ((program.regions.take (r + 1)).map Region.wait)

/-- No command has a wait that is not kept, and the waits are no longer in all than a duration can be. -/
structure Honest (program : Program) : Prop where
  kept : ∀ c ∈ program.commands, c.held = c.wait.nanos
  short : (program.commands.map (·.wait.nanos)).sum ≤ maxNanos

instance (program : Program) : Decidable program.Honest :=
  decidable_of_iff ((∀ c ∈ program.commands, c.held = c.wait.nanos) ∧
      (program.commands.map (·.wait.nanos)).sum ≤ maxNanos)
    ⟨fun h => ⟨h.1, h.2⟩, fun h => ⟨h.kept, h.short⟩⟩

theorem Honest.map_held (h : program.Honest) (cs : List Command) (hcs : cs ⊆ program.commands) :
    cs.map Command.held = cs.map (·.wait.nanos) :=
  List.map_congr_left fun c hc => h.kept c (hcs hc)

theorem Honest.heldInAll_eq (h : program.Honest) :
    program.heldInAll = program.totalWait.nanos := by
  rw [totalWait, Duration.nanos_sum, List.map_map]
  exact (congrArg List.sum (h.map_held program.commands (List.Subset.refl _))).trans
    (Nat.min_eq_left h.short).symm

/-- Before a region come the commands of the region before it, and those before that region. -/
theorem sum_held_lt_succ (cs : List Command) (r : Nat) :
    ((cs.filter (·.region < r + 1)).map Command.held).sum =
      ((cs.filter (·.region < r)).map Command.held).sum +
        ((cs.filter (·.region == r)).map Command.held).sum := by
  induction cs with
  | nil => rfl
  | cons c cs ih =>
    rcases Nat.lt_trichotomy c.region r with hlt | heq | hgt
    · have hlt' : c.region < r + 1 := by omega
      have hne : c.region ≠ r := by omega
      simp only [List.filter_cons, hlt, hlt', hne, decide_true, beq_iff_eq, if_true, if_false,
        List.map_cons, List.sum_cons]
      omega
    · have hlt : c.region < r + 1 := by omega
      have hge : ¬c.region < r := by omega
      simp only [List.filter_cons, hlt, hge, decide_true, decide_false, beq_iff_eq.2 heq, if_true,
        Bool.false_eq_true, if_false, List.map_cons, List.sum_cons]
      omega
    · have hge : ¬c.region < r := by omega
      have hge' : ¬c.region < r + 1 := by omega
      have hne : c.region ≠ r := by omega
      simp only [List.filter_cons, hge, hge', hne, decide_false, beq_iff_eq, Bool.false_eq_true,
        if_false]
      exact ih

theorem commandsOf_eq_nil (hshaped : program.Shaped) (hr : program.regions[r]? = none) :
    program.commandsOf r = [] := by
  rw [commandsOf, List.filter_eq_nil_iff]
  intro c hc hregion
  obtain ⟨i, hcommand⟩ := List.getElem?_of_mem hc
  obtain ⟨region, hsome⟩ := hshaped.exists_regionOf? hcommand
  rw [beq_iff_eq.1 hregion, hr] at hsome
  cases hsome

theorem Honest.sum_block (h : program.Honest) (hblocks : program.Blocks) {region : Region}
    (hregion : program.regions[r]? = some region) :
    ((program.commandsOf r).map Command.held).sum = region.wait.nanos := by
  have hsub : (program.commandsOf r).Sublist program.commands := List.filter_sublist
  have hle := (hsub.map (·.wait.nanos)).sum_le_sum fun _ _ => Nat.zero_le _
  rw [(hblocks.covers r region hregion).wait, h.map_held _ hsub.subset]
  exact (Nat.min_eq_left (hle.trans h.short)).symm

/-- The commands before a region take what the regions before it say. -/
theorem Honest.sum_held_lt (h : program.Honest) (hblocks : program.Blocks)
    (hshaped : program.Shaped) (r : Nat) :
    ((program.commands.filter (·.region < r)).map Command.held).sum =
      ((program.regions.take r).map (·.wait.nanos)).sum := by
  induction r with
  | zero =>
    have hnone : program.commands.filter (·.region < 0) = [] :=
      List.filter_eq_nil_iff.2 fun _ _ => by simp
    rw [hnone]
    rfl
  | succ r ih =>
    rw [sum_held_lt_succ, ih, List.take_add_one, List.map_append, List.sum_append]
    congr 1
    cases hregion : program.regions[r]? with
    | none =>
      exact congrArg (fun cs : List Command => (cs.map Command.held).sum)
        (commandsOf_eq_nil hshaped hregion)
    | some region =>
      exact (h.sum_block hblocks hregion).trans List.sum_singleton.symm

/-- What a program says about the length of a region and of those before it is what they take. -/
theorem Honest.heldThrough_eq (h : program.Honest) (hblocks : program.Blocks)
    (hshaped : program.Shaped) (r : Nat) :
    program.heldThrough r = (program.waitThrough r).nanos := by
  have hthrough : program.heldThrough r =
      ((program.commands.filter (·.region < r + 1)).map Command.held).sum := by
    unfold heldThrough
    congr 2
    exact List.filter_congr fun c _ => decide_eq_decide.2 Nat.lt_succ_iff.symm
  have hle : program.heldThrough r ≤ program.heldInAll :=
    (List.filter_sublist.map Command.held).sum_le_sum fun _ _ => Nat.zero_le _
  have hshort : program.heldInAll ≤ maxNanos :=
    h.heldInAll_eq.trans_le program.totalWait.nanos_le
  have hsum := hthrough.trans (h.sum_held_lt hblocks hshaped (r + 1))
  rw [waitThrough, Duration.nanos_sum, List.map_map]
  exact hsum.trans (Nat.min_eq_left (hsum.symm.trans_le (hle.trans hshort))).symm

end Program

end Choreo
