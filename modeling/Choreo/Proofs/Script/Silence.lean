import Choreo.Proofs.Script.Language
import Mathlib.Order.MinMax

/-!
# Lines that say nothing

Blank lines, comments and marks without a name say nothing: the compiler passes over them and knows
afterwards what it knew before. They are counted, though. The compiler does nothing with the numbers of
lines but compare them, so it makes no difference whether lines are renumbered before they are compiled
or after, as long as they stay in order. A line that says nothing, put between others, therefore
moves the numbers behind it by one and changes nothing else.
-/

namespace Choreo

/-! ## Renumbering -/

section Renumbered

variable (f : Nat → Nat)

def Command.renumbered (c : Command) : Command := { c with line := f c.line }

def Region.renumbered (region : Region) : Region :=
  { region with startLine := f region.startLine, endLine := f region.endLine }

def Program.renumbered (p : Program) : Program :=
  { commands := p.commands.map (Command.renumbered f)
    regions := p.regions.map (Region.renumbered f) }

def Reading.renumbered (r : Reading) : Reading := { r with program := r.program.renumbered f }

end Renumbered

variable {f : Nat → Nat}

theorem Region.absorb_renumbered (hf : Monotone f) (region : Region) (number : Nat)
    (wait : Duration) :
    (region.renumbered f).absorb (f number) wait = (region.absorb number wait).renumbered f := by
  simp only [absorb, renumbered, hf.map_min, hf.map_max]

namespace Reading

/-- The regions of a renumbered program, the last one of them having taken in one more command. -/
theorem modify_renumbered (hf : Monotone f) (regions : List Region) (i number : Nat)
    (wait : Duration) :
    (regions.map (Region.renumbered f)).modify i (·.absorb (f number) wait) =
      (regions.modify i (·.absorb number wait)).map (Region.renumbered f) := by
  apply List.ext_getElem?
  intro j
  rw [List.getElem?_modify, List.getElem?_map, List.getElem?_map, List.getElem?_modify]
  cases regions[j]? with
  | none => rfl
  | some region =>
    simp only [Option.map_eq_map, Option.map_some]
    split
    · rw [Region.absorb_renumbered hf]
    · rfl

theorem command_renumbered (hf : Monotone f) (r : Reading) (number : Nat) (text : List Char)
    (wait : Duration) :
    (r.renumbered f).command (f number) text wait =
      (r.command number text wait).renumbered f := by
  have hstarted (name : String) (named : Bool) (regions : List Region) :
      regions.map (Region.renumbered f) ++ [Region.start name named (f number)] =
        (regions ++ [Region.start name named number]).map (Region.renumbered f) := by
    rw [List.map_append]
    rfl
  obtain ⟨program, heading, fresh, defaultWait⟩ := r
  unfold command renumbered Program.renumbered
  cases fresh with
  | false =>
    simp only [Bool.false_eq_true, if_false, List.length_map, modify_renumbered hf,
      List.map_append]
    rfl
  | true =>
    cases heading <;>
    · simp only [if_true, hstarted, List.length_map, modify_renumbered hf]
      rw [List.map_append]
      rfl

theorem line_renumbered (hf : Monotone f) (filter : Option String) (r : Reading) (number : Nat)
    (line : String) :
    (r.renumbered f).line filter (f number) line = (r.line filter number line).renumbered f := by
  unfold Reading.line
  simp only
  split
  · rfl
  · rfl
  · rfl
  · rw [apply_ite (Reading.renumbered f)]
    refine if_congr Iff.rfl ?_ rfl
    unfold content
    split
    · rfl
    · exact command_renumbered hf r number _ _

/-- Lines may be renumbered before or after they are read. -/
theorem lines_renumbered (hf : Monotone f) (filter : Option String) (r : Reading)
    {number number' : Nat} {lines : List String}
    (hnumbers : ∀ i < lines.length, f (number + i) = number' + i) :
    (r.renumbered f).lines filter number' lines =
      (r.lines filter number lines).renumbered f := by
  induction lines generalizing r number number' with
  | nil => rfl
  | cons line lines ih =>
    have hfirst : f number = number' := hnumbers 0 (Nat.succ_pos _)
    have hrest : ∀ i < lines.length, f (number + 1 + i) = number' + 1 + i := by
      intro i hi
      have hnext := hnumbers (i + 1) (Nat.succ_lt_succ hi)
      rwa [Nat.add_assoc, Nat.add_comm 1 i, Nat.add_assoc, Nat.add_comm 1 i]
    rw [Reading.lines, Reading.lines, ← hfirst, line_renumbered hf, hfirst, ih _ hrest]

end Reading

/-! ## Lines that are passed over -/

namespace Language

/-- A trimmed line that is blank, a mark without a name, or a comment that is no marker. -/
def Silent (line : List Char) : Prop :=
  line = [] ∨ ("#region ".toList <+: line ∧ Text.trim (line.drop 8) = [':']) ∨
    (line.head? = some '#' ∧ line ≠ "#region".toList ∧ ¬"#region ".toList <+: line ∧
      ¬"#endregion".toList <+: line)

instance (line : List Char) : Decidable (Silent line) := inferInstanceAs (Decidable (_ ∨ _ ∨ _))

/-- The number that a line gets when one more is put in behind some lines. -/
def moved (place number : Nat) : Nat := if place < number then number + 1 else number

theorem moved_monotone (place : Nat) : Monotone (moved place) := by
  intro i j hij
  unfold moved
  split <;> split <;> omega

theorem Silent.kind_eq {line : List Char} (h : Silent line) : LineKind.of line = .ignored := by
  have hignored (hmarker : marker? line = none) (hhead : line = [] ∨ line.head? = some '#') :
      LineKind.of line = .ignored := by
    rw [Language.kind_eq, hmarker]
    refine if_neg ?_
    rintro ⟨hne, hmark⟩
    exact hhead.elim hne hmark
  rcases h with rfl | ⟨hstarts, hname⟩ | ⟨hhead, hbare, hregion, hend⟩
  · rfl
  · have hopened : opened? line = none := by
      refine if_neg fun h => h.2 ?_
      rw [hname]
      rfl
    refine hignored ?_ (.inr ?_)
    · rw [marker?, hopened]
      exact if_neg (not_closes_of_opened hstarts)
    · obtain ⟨rest, rfl⟩ := hstarts
      rfl
  · have hopened : opened? line = none := if_neg fun h => hregion h.1
    refine hignored ?_ (.inr hhead)
    rw [marker?, hopened]
    exact if_neg (not_or.2 ⟨hbare, hend⟩)

end Language

/-! ## Programs with one more line -/

namespace Program

open Choreo.Language

/-- A line that says nothing moves the numbers of the lines behind it, and changes nothing else. -/
theorem compile_insert (xs ys : List String) (filter : Option String) {line : String}
    (hsilent : Silent (Text.trim line.toList)) :
    compile (xs ++ [line] ++ ys) filter = (compile (xs ++ ys) filter).renumbered (moved xs.length) := by
  have hmoved := moved_monotone xs.length
  have hpassed (r : Reading) (number : Nat) :
      r.line (Heading.filter? filter) number line = r := by
    simp only [Reading.line, hsilent.kind_eq]
  have hbefore : ({} : Reading).lines (Heading.filter? filter) 1 xs =
      (({} : Reading).lines (Heading.filter? filter) 1 xs).renumbered (moved xs.length) :=
    Reading.lines_renumbered hmoved (Heading.filter? filter) {} fun i hi => if_neg (by omega)
  have hbehind : ∀ i < ys.length, moved xs.length (1 + xs.length + i) = 1 + xs.length + 1 + i := by
    intro i _
    rw [moved, if_pos (by omega)]
    omega
  have hread : ({} : Reading).lines (Heading.filter? filter) 1 (xs ++ [line] ++ ys) =
      (({} : Reading).lines (Heading.filter? filter) 1 (xs ++ ys)).renumbered
        (moved xs.length) := by
    rw [readingLines_append, readingLines_concat, hpassed, readingLines_append,
      ← Reading.lines_renumbered hmoved _ _ hbehind, ← hbefore, List.length_append]
    rfl
  unfold compile
  rw [hread]
  rfl

/-- A mark without a name stands in the middle of a region. -/
theorem compile_insert_nameless :
    let xs := ["#region Verse", "/a"]
    let ys := ["/b <wait.2>", "#endregion", "/c"]
    let longer := compile (xs ++ ["\t#region : "] ++ ys) none
    Silent (Text.trim "\t#region : ".toList) ∧
      longer = (compile (xs ++ ys) none).renumbered (moved xs.length) ∧
      (compile (xs ++ ys) none).regions.map (fun region => (region.startLine, region.endLine)) =
        [(2, 3), (5, 5)] ∧
      longer.regions.map (fun region => (region.startLine, region.endLine)) = [(2, 4), (6, 6)] := by
  intro xs ys longer
  have hsilent : Silent (Text.trim "\t#region : ".toList) := by decide
  have hinsert : longer = (compile (xs ++ ys) none).renumbered (moved xs.length) :=
    compile_insert xs ys none hsilent
  exact ⟨hsilent, hinsert, by decide +kernel, by rw [hinsert]; decide +kernel⟩

end Program

end Choreo
