import Choreo.Proofs.Script.Shape
import Mathlib.Algebra.GroupWithZero.Nat
import Mathlib.Data.List.Chain
import Mathlib.Order.Bounds.Basic

/-!
# The layout of programs

The regions of a program are its commands in blocks, one after the other. Every region knows the
first and the last line of its block and how long the block takes, and the heading it stands under.
The compiler opens a region with the first command after a marker and extends it with the others.
-/

namespace Choreo

theorem Duration.nanos_sum (ds : List Duration) :
    (Duration.sum ds).nanos = min (ds.map Duration.nanos).sum maxNanos := by
  unfold Duration.sum
  induction ds using List.reverseRecOn with
  | nil => rfl
  | append_singleton ds d ih =>
    rw [List.foldl_append, List.foldl_cons, List.foldl_nil, Duration.nanos_add, ih,
      List.map_append, List.sum_append, List.map_cons, List.map_nil, List.sum_singleton]
    omega

/-! ## Regions and their blocks -/

/-- What a region says about its commands. -/
structure Region.Covers (region : Region) (block : List Command) : Prop where
  first : IsLeast {line | ∃ c ∈ block, c.line = line} region.startLine
  last : IsGreatest {line | ∃ c ∈ block, c.line = line} region.endLine
  wait : region.wait.nanos = min (block.map (·.wait.nanos)).sum maxNanos

/-- What a region says about the heading it stands under, given the name that was asked for. -/
structure Region.Titled (filter : Option String) (region : Region) : Prop where
  unheaded : region.unheaded = true ↔ region.name = ""
  unmarked : region.unheaded = true → region.named = false
  unfiltered : filter = none → region.named = false
  filtered : ∀ name, filter = some name → region.name = name

def Region.title (region : Region) : String × Bool := (region.name, region.named)

/-- The name and the mark of the region that the lines under a heading form. -/
def Heading.title (heading : Option Heading) : String × Bool :=
  (heading.elim "" Heading.name, heading.elim false Heading.named)

namespace Region

variable {region : Region} {block : List Command} {c : Command}

theorem covers_start (name : String) (named : Bool) (c : Command) :
    ((Region.start name named c.line).absorb c.line c.wait).Covers [c] := by
  have hline : {line | ∃ d ∈ [c], d.line = line} = {c.line} := by
    ext line
    simp [eq_comm]
  refine ⟨?_, ?_, ?_⟩
  · rw [hline]
    simp [absorb, start]
  · rw [hline]
    simp [absorb, start]
  · show (Duration.zero + c.wait).nanos = _
    rw [Duration.nanos_add, Duration.nanos_zero, List.map_singleton, List.sum_singleton,
      Nat.zero_add]

theorem Covers.concat (h : region.Covers block) (hbefore : ∀ d ∈ block, d.line < c.line) :
    (region.absorb c.line c.wait).Covers (block ++ [c]) := by
  obtain ⟨a, ha, hstart⟩ := h.first.1
  obtain ⟨b, hb, hend⟩ := h.last.1
  have hfirst : region.startLine < c.line := hstart ▸ hbefore a ha
  have hlast : region.endLine < c.line := hend ▸ hbefore b hb
  refine ⟨⟨⟨a, List.mem_append_left _ ha, ?_⟩, ?_⟩, ⟨⟨c, ?_, ?_⟩, ?_⟩, ?_⟩
  · exact hstart.trans (Nat.min_eq_left hfirst.le).symm
  · rintro _ ⟨d, hd, rfl⟩
    show min region.startLine c.line ≤ d.line
    rcases List.mem_append.1 hd with hold | hnew
    · exact (Nat.min_le_left _ _).trans (h.first.2 ⟨d, hold, rfl⟩)
    · rw [List.mem_singleton.1 hnew]
      exact Nat.min_le_right _ _
  · exact List.mem_append_right _ (List.mem_singleton_self c)
  · exact (Nat.max_eq_right hlast.le).symm
  · rintro _ ⟨d, hd, rfl⟩
    show d.line ≤ max region.endLine c.line
    rcases List.mem_append.1 hd with hold | hnew
    · exact (h.last.2 ⟨d, hold, rfl⟩).trans (Nat.le_max_left _ _)
    · rw [List.mem_singleton.1 hnew]
      exact Nat.le_max_right _ _
  · show (region.wait + c.wait).nanos = _
    rw [Duration.nanos_add, h.wait, List.map_append, List.sum_append, List.map_singleton,
      List.sum_singleton]
    omega

theorem Covers.ne_nil (h : region.Covers block) : block ≠ [] := by
  obtain ⟨c, hc, -⟩ := h.first.1
  exact List.ne_nil_of_mem hc

theorem titled_start {filter : Option String} {heading : Option Heading} (number : Nat)
    (hselected : Heading.selected filter heading = true)
    (hname : ∀ h, heading = some h → h.name ≠ "") :
    (Region.start (Heading.title heading).1 (Heading.title heading).2 number).Titled filter := by
  cases heading with
  | none =>
    cases filter with
    | none => exact ⟨⟨fun _ => rfl, fun _ => rfl⟩, fun _ => rfl, fun _ => rfl, nofun⟩
    | some name => cases hselected
  | some heading =>
    have hheaded : (heading.name == "") = false := beq_eq_false_iff_ne.2 (hname heading rfl)
    refine ⟨beq_iff_eq, ?_, ?_, ?_⟩
    · intro hunheaded
      exact absurd (hheaded.symm.trans hunheaded) Bool.false_ne_true
    · rintro rfl
      exact Bool.not_eq_eq_eq_not.1 hselected
    · rintro name rfl
      exact beq_iff_eq.1 hselected

theorem Titled.absorb {filter : Option String} (h : region.Titled filter) (line : Nat)
    (wait : Duration) : (region.absorb line wait).Titled filter :=
  ⟨h.unheaded, h.unmarked, h.unfiltered, h.filtered⟩

end Region

theorem LineKind.name_ne_of_opens {line : List Char} {heading : Heading}
    (hopens : LineKind.of line = .opens heading) : heading.name ≠ "" := by
  rw [Language.kind_eq] at hopens
  split at hopens
  · next heading' hmarker =>
    cases hopens
    unfold Language.marker? at hmarker
    split at hmarker
    · next hopened =>
      cases hmarker
      unfold Language.opened? at hopened
      split at hopened
      · next hname =>
        cases hopened
        intro hempty
        exact hname.2 (String.ofList_eq_empty_iff.1 hempty)
      · cases hopened
    · split at hmarker <;> cases hmarker
  · cases hopens
  · split at hopens <;> cases hopens

def Program.commandsOf (program : Program) (region : Nat) : List Command :=
  program.commands.filter (·.region == region)

/-- The commands come in blocks, one for each region, in the order of the regions. -/
structure Program.Blocks (program : Program) : Prop where
  first : ∀ c ∈ program.commands.head?, c.region = 0
  next : program.commands.IsChain fun c d => d.region = c.region ∨ d.region = c.region + 1
  covers : ∀ i region, program.regions[i]? = some region →
    Region.Covers region (program.commandsOf i)
  total : min (program.regions.map (·.wait.nanos)).sum maxNanos =
    min (program.commands.map (·.wait.nanos)).sum maxNanos

/-! ## Opening and extending regions -/

structure Reading.Blocks (r : Reading) : Prop extends r.program.Blocks where
  last : ∀ c ∈ r.program.commands.getLast?, c.region + 1 = r.program.regions.length

namespace Reading

variable {r : Reading} {filter : Option String} {number : Nat}

theorem modify_concat {α : Type} (earlier : List α) (last : α) (f : α → α) :
    (earlier ++ [last]).modify earlier.length f = earlier ++ [f last] := by
  induction earlier with
  | nil => rfl
  | cons first earlier ih => exact congrArg (first :: ·) ih

/-- The first command after a marker opens a region. Every other one extends the last region. -/
theorem command_regions (hopened : r.fresh = false → r.program.regions ≠ []) (number : Nat)
    (text : List Char) (wait : Duration) :
    (r.fresh = true ∧ (r.command number text wait).program.regions = r.program.regions ++
      [(Region.start (Heading.title r.heading).1 (Heading.title r.heading).2 number).absorb
        number wait]) ∨
    ∃ earlier region, r.fresh = false ∧ r.program.regions = earlier ++ [region] ∧
      (r.command number text wait).program.regions = earlier ++ [region.absorb number wait] := by
  cases hfresh : r.fresh with
  | true =>
    refine Or.inl ⟨rfl, ?_⟩
    unfold command
    simp only [hfresh, if_true, List.length_append, List.length_singleton, Nat.add_sub_cancel]
    rw [modify_concat]
    cases r.heading with
    | none => rfl
    | some heading => rfl
  | false =>
    obtain ⟨earlier, region, hregions⟩ :=
      (List.eq_nil_or_concat' r.program.regions).resolve_left (hopened hfresh)
    refine Or.inr ⟨earlier, region, rfl, hregions, ?_⟩
    unfold command
    simp only [hfresh, hregions, Bool.false_eq_true, if_false, List.length_append,
      List.length_singleton, Nat.add_sub_cancel]
    exact modify_concat earlier region _

def received (r : Reading) (number : Nat) (text : List Char) (wait : Duration) : Command :=
  { text := String.ofList text, line := number, region := r.regionAt, wait,
    directive := .classify text }

theorem commands_eq_concat (r : Reading) (number : Nat) (text : List Char) (wait : Duration) :
    (r.command number text wait).program.commands =
      r.program.commands ++ [r.received number text wait] :=
  r.command_commands number text wait

theorem commandsOf_command (r : Reading) (number : Nat) (text : List Char) (wait : Duration)
    (i : Nat) :
    (r.command number text wait).program.commandsOf i =
      r.program.commandsOf i ++ if r.regionAt = i then [r.received number text wait] else [] := by
  have hregion : (r.received number text wait).region = r.regionAt := rfl
  rw [Program.commandsOf, commands_eq_concat, List.filter_append, List.filter_singleton, hregion]
  by_cases hsame : r.regionAt = i
  · rw [if_pos hsame, beq_iff_eq.2 hsame]
    rfl
  · rw [if_neg hsame, beq_eq_false_iff_ne.2 hsame]
    rfl

theorem Shaped.region_lt (h : r.Shaped number) {c : Command} (hc : c ∈ r.program.commands) :
    c.region < r.program.regions.length := by
  obtain ⟨first, hfirst, -⟩ := h.within c hc
  obtain ⟨region, hregion, -⟩ := Option.map_eq_some_iff.1 hfirst
  exact (List.getElem?_eq_some_iff.1 hregion).1

namespace Blocks

theorem covers_commandsOf (h : r.Blocks) (hshaped : r.Shaped number) (text : List Char)
    (wait : Duration) (i : Nat) {region : Region}
    (hregion : (r.command number text wait).program.regions[i]? = some region) :
    region.Covers ((r.command number text wait).program.commandsOf i) := by
  rw [commandsOf_command]
  rcases r.command_regions hshaped.opened number text wait with
    ⟨hfresh, hregions⟩ | ⟨earlier, open', hfresh, hold, hregions⟩
  · have hat : r.regionAt = r.program.regions.length := if_pos hfresh
    rw [hregions, List.getElem?_append] at hregion
    split at hregion
    · rw [if_neg (by omega), List.append_nil]
      exact h.covers i region hregion
    · have hlast : r.program.regions.length = i := by
        have hbound := (List.getElem?_eq_some_iff.1 hregion).1
        rw [List.length_singleton] at hbound
        omega
      have hnone : r.program.commandsOf i = [] := by
        rw [Program.commandsOf, List.filter_eq_nil_iff]
        intro c hc hsame
        have hbelow := hshaped.region_lt hc
        have hat : c.region = i := beq_iff_eq.1 hsame
        omega
      rw [hlast, Nat.sub_self, List.getElem?_cons_zero] at hregion
      rw [if_pos (hat.trans hlast), hnone, List.nil_append, ← Option.some.inj hregion]
      exact Region.covers_start _ _ (r.received number text wait)
  · have hat : r.regionAt = earlier.length := by simp [regionAt, hfresh, hold]
    have hkept : r.program.regions[i]? = (earlier ++ [open'])[i]? := by rw [hold]
    rw [hregions, List.getElem?_append] at hregion
    rw [List.getElem?_append] at hkept
    split at hregion
    · next hlt =>
      rw [if_neg (by omega), List.append_nil]
      rw [if_pos hlt] at hkept
      exact h.covers i region (hkept.trans hregion)
    · next hge =>
      have hlast : earlier.length = i := by
        have hbound := (List.getElem?_eq_some_iff.1 hregion).1
        rw [List.length_singleton] at hbound
        omega
      rw [if_neg hge, hlast, Nat.sub_self, List.getElem?_cons_zero] at hkept
      rw [hlast, Nat.sub_self, List.getElem?_cons_zero] at hregion
      rw [if_pos (hat.trans hlast), ← Option.some.inj hregion]
      have hbefore : ∀ d ∈ r.program.commandsOf i, d.line < number := fun d hd =>
        hshaped.before d (List.mem_filter.1 hd).1
      exact (h.covers i open' hkept).concat (c := r.received number text wait) hbefore

theorem regions_eq_nil (h : r.Blocks) (hnone : r.program.commands = []) :
    r.program.regions = [] := by
  rw [List.eq_nil_iff_forall_not_mem]
  intro region hmem
  obtain ⟨i, hregion⟩ := List.getElem?_of_mem hmem
  apply (h.covers i region hregion).ne_nil
  rw [Program.commandsOf, hnone, List.filter_nil]

theorem command (h : r.Blocks) (hshaped : r.Shaped number) (text : List Char) (wait : Duration) :
    (r.command number text wait).Blocks := by
  have hregions := r.command_regions hshaped.opened number text wait
  refine { first := ?_, next := ?_, covers := ?_, total := ?_, last := ?_ }
  · intro c hc
    rw [commands_eq_concat] at hc
    cases hcommands : r.program.commands with
    | nil =>
      have hnone := h.regions_eq_nil hcommands
      rw [hcommands] at hc
      cases hc
      show r.regionAt = 0
      simp [regionAt, hnone]
    | cons first rest =>
      rw [hcommands] at hc
      apply h.first c
      rw [hcommands]
      exact hc
  · rw [commands_eq_concat, List.isChain_append]
    refine ⟨h.next, List.isChain_singleton _, ?_⟩
    intro c hc d hd
    have hlast := h.last c hc
    cases hd
    show r.regionAt = c.region ∨ r.regionAt = c.region + 1
    unfold regionAt
    split <;> omega
  · intro i region hregion
    exact h.covers_commandsOf hshaped text wait i hregion
  · have htotal := h.total
    have hwait : (r.received number text wait).wait = wait := rfl
    rw [commands_eq_concat, List.map_append, List.sum_append, List.map_singleton,
      List.sum_singleton, hwait]
    rcases hregions with ⟨-, hregions⟩ | ⟨earlier, region, -, hold, hregions⟩
    · have hnew : ((Region.start (Heading.title r.heading).1 (Heading.title r.heading).2
          number).absorb number wait).wait = .zero + wait := rfl
      rw [hregions, List.map_append, List.sum_append, List.map_singleton, List.sum_singleton, hnew,
        Duration.nanos_add, Duration.nanos_zero]
      omega
    · have hextended : (region.absorb number wait).wait = region.wait + wait := rfl
      rw [hold, List.map_append, List.sum_append, List.map_singleton, List.sum_singleton] at htotal
      rw [hregions, List.map_append, List.sum_append, List.map_singleton, List.sum_singleton,
        hextended, Duration.nanos_add]
      omega
  · intro c hc
    rw [commands_eq_concat, List.getLast?_concat] at hc
    cases hc
    show r.regionAt + 1 = _
    rcases hregions with ⟨hfresh, hregions⟩ | ⟨earlier, region, hfresh, hold, hregions⟩
    · rw [hregions, regionAt, if_pos hfresh, List.length_append, List.length_singleton]
    · simp [regionAt, hfresh, hold, hregions]

end Blocks

/-- What a line does to what is known. A command and a default come from a line that counts. -/
theorem line_cases (filter : Option String) (r : Reading) (number : Nat) (line : String) :
    r.line filter number line = r ∨
    (∃ heading, r.line filter number line = r.mark heading ∧
      ∀ h, heading = some h → h.name ≠ "") ∨
    (∃ wait, r.line filter number line = { r with defaultWait := wait }) ∨
    (Heading.selected filter r.heading = true ∧
      ∃ text wait, r.line filter number line = r.command number text wait) := by
  unfold Reading.line
  simp only
  split
  · exact Or.inl rfl
  · next heading hkind =>
    refine Or.inr (Or.inl ⟨some heading, rfl, ?_⟩)
    rintro _ ⟨⟩
    exact LineKind.name_ne_of_opens hkind
  · exact Or.inr (Or.inl ⟨none, rfl, nofun⟩)
  · split
    · next hselected =>
      unfold Reading.content
      split
      · exact Or.inr (Or.inr (Or.inl ⟨_, rfl⟩))
      · exact Or.inr (Or.inr (Or.inr ⟨hselected, _, _, rfl⟩))
    · exact Or.inl rfl

theorem Blocks.line (h : r.Blocks) (hshaped : r.Shaped number) (filter : Option String)
    (line : String) : (r.line filter number line).Blocks := by
  rcases line_cases filter r number line with
    heq | ⟨heading, heq, -⟩ | ⟨wait, heq⟩ | ⟨-, text, wait, heq⟩
  · rwa [heq]
  · rw [heq]
    exact ⟨h.toBlocks, h.last⟩
  · rw [heq]
    exact ⟨h.toBlocks, h.last⟩
  · rw [heq]
    exact h.command hshaped text wait

theorem Blocks.of_lines (filter : Option String) (lines : List String) :
    (({} : Reading).lines (Heading.filter? filter) 1 lines).Blocks := by
  induction lines using List.reverseRecOn with
  | nil => exact ⟨⟨nofun, List.isChain_nil, nofun, rfl⟩, nofun⟩
  | append_singleton lines line ih =>
    rw [Language.readingLines_concat, Nat.add_comm]
    exact ih.line (Shaped.of_lines (Heading.filter? filter) lines) _ line

/-- Every region is titled by the heading that it was opened under. -/
structure Titled (filter : Option String) (r : Reading) : Prop where
  heading : ∀ h, r.heading = some h → h.name ≠ ""
  regions : ∀ region ∈ r.program.regions, region.Titled filter

theorem Titled.command (h : r.Titled filter) (hopened : r.fresh = false → r.program.regions ≠ [])
    (hselected : Heading.selected filter r.heading = true) (text : List Char) (wait : Duration) :
    (r.command number text wait).Titled filter := by
  refine ⟨h.heading, ?_⟩
  rcases r.command_regions hopened number text wait with
    ⟨-, hregions⟩ | ⟨earlier, region, -, hold, hregions⟩
  · rw [hregions, List.forall_mem_append, List.forall_mem_singleton]
    exact ⟨h.regions, (Region.titled_start number hselected h.heading).absorb number wait⟩
  · have htitled := h.regions
    rw [hold, List.forall_mem_append, List.forall_mem_singleton] at htitled
    rw [hregions, List.forall_mem_append, List.forall_mem_singleton]
    exact ⟨htitled.1, htitled.2.absorb number wait⟩

theorem Titled.of_lines (filter : Option String) (lines : List String) :
    (({} : Reading).lines (Heading.filter? filter) 1 lines).Titled (Heading.filter? filter) := by
  induction lines using List.reverseRecOn with
  | nil => exact ⟨nofun, nofun⟩
  | append_singleton lines line ih =>
    have hshaped := Shaped.of_lines (Heading.filter? filter) lines
    rw [Language.readingLines_concat, Nat.add_comm]
    rcases line_cases (Heading.filter? filter)
        (({} : Reading).lines (Heading.filter? filter) 1 lines) (lines.length + 1) line with
      heq | ⟨heading, heq, hname⟩ | ⟨wait, heq⟩ | ⟨hselected, text, wait, heq⟩
    · rwa [heq]
    · rw [heq]
      exact ⟨hname, ih.regions⟩
    · rw [heq]
      exact ⟨ih.heading, ih.regions⟩
    · rw [heq]
      exact ih.command hshaped.opened hselected text wait

end Reading

namespace Program

variable {program : Program} {i j : Nat} {c d : Command} {region : Region}

theorem blocks_compile (lines : List String) (filter : Option String) :
    (compile lines filter).Blocks :=
  (Reading.Blocks.of_lines filter lines).toBlocks

theorem Blocks.mono (h : program.Blocks) :
    program.commands.Pairwise fun c d : Command => c.region ≤ d.region := by
  have hnext : program.commands.IsChain fun c d : Command => c.region ≤ d.region := by
    apply h.next.imp
    intro c d hnext
    omega
  have htrans : Trans (fun c d : Command => c.region ≤ d.region)
      (fun c d : Command => c.region ≤ d.region) fun c d : Command => c.region ≤ d.region :=
    ⟨Nat.le_trans⟩
  exact List.isChain_iff_pairwise.1 hnext

theorem mem_commandsOf : c ∈ program.commandsOf i ↔ c ∈ program.commands ∧ c.region = i := by
  rw [commandsOf, List.mem_filter, beq_iff_eq]

theorem Blocks.line_lt_of_region_lt (h : program.Blocks)
    (hordered : program.commands.Pairwise (·.line < ·.line)) (hc : c ∈ program.commands)
    (hd : d ∈ program.commands) (hregion : c.region < d.region) : c.line < d.line := by
  obtain ⟨i, hi, rfl⟩ := List.getElem_of_mem hc
  obtain ⟨j, hj, rfl⟩ := List.getElem_of_mem hd
  rcases Nat.lt_trichotomy i j with hlt | rfl | hgt
  · exact List.pairwise_iff_getElem.1 hordered i j hi hj hlt
  · exact absurd hregion (Nat.lt_irrefl _)
  · have hle := List.pairwise_iff_getElem.1 h.mono j i hj hi hgt
    omega

theorem line_bounds_compile (lines : List String) (filter : Option String)
    (hc : c ∈ (compile lines filter).commands) : 1 ≤ c.line ∧ c.line ≤ lines.length := by
  have hemitted := List.mem_map_of_mem (f := Language.emission) hc
  have hcommands : (compile lines filter).commands.map Language.emission = _ :=
    (Language.Reads.of_lines filter lines).commands
  rw [hcommands] at hemitted
  obtain ⟨before, line, after, rfl, hemission⟩ := Language.exists_of_mem_lookBack hemitted
  have hline : c.line = before.length + 1 := Language.line_of_emission? hemission
  rw [hline, List.length_append, List.length_cons]
  omega

/-- The layout of the program of some lines, given the name that was asked for. -/
structure LaidOut (program : Program) (lines : List String) (filter : Option String) : Prop where
  increasing : program.commands.Pairwise (·.line < ·.line)
  within : ∀ c ∈ program.commands, 1 ≤ c.line ∧ c.line ≤ lines.length
  first : ∀ c ∈ program.commands.head?, c.region = 0
  next : program.commands.IsChain fun c d => d.region = c.region ∨ d.region = c.region + 1
  valid : ∀ c ∈ program.commands, c.region < program.regions.length
  inhabited : ∀ i < program.regions.length, program.commandsOf i ≠ []
  covers : ∀ i region, program.regions[i]? = some region →
    Region.Covers region (program.commandsOf i)
  apart : program.regions.Pairwise (·.endLine < ·.startLine)
  total : program.totalWait.nanos = min (program.regions.map (·.wait.nanos)).sum maxNanos
  titled : ∀ region ∈ program.regions, Region.Titled filter region

/-- Every script is laid out in blocks, whatever its markers are and whichever region is asked
for. -/
theorem compile_laidOut (lines : List String) (filter : Option String) :
    (compile lines filter).LaidOut lines (Heading.filter? filter) := by
  have hshaped := Reading.Shaped.of_lines (Heading.filter? filter) lines
  have hblocks := blocks_compile lines filter
  refine
    { increasing := hshaped.ordered
      within := fun c hc => line_bounds_compile lines filter hc
      first := hblocks.first
      next := hblocks.next
      valid := fun c hc => hshaped.region_lt hc
      inhabited := ?_
      covers := hblocks.covers
      apart := ?_
      total := ?_
      titled := (Reading.Titled.of_lines filter lines).regions }
  · intro i hi
    exact (hblocks.covers i _ (List.getElem?_eq_getElem hi)).ne_nil
  · rw [List.pairwise_iff_getElem]
    intro i j hi hj hij
    obtain ⟨c, hc, hend⟩ := (hblocks.covers i _ (List.getElem?_eq_getElem hi)).last.1
    obtain ⟨d, hd, hstart⟩ := (hblocks.covers j _ (List.getElem?_eq_getElem hj)).first.1
    obtain ⟨hc, hci⟩ := mem_commandsOf.1 hc
    obtain ⟨hd, hdj⟩ := mem_commandsOf.1 hd
    rw [← hend, ← hstart]
    exact hblocks.line_lt_of_region_lt hshaped.ordered hc hd (by omega)
  · rw [totalWait, Duration.nanos_sum, List.map_map]
    exact hblocks.total.symm

example :
    let program := compile ["/a", "#region R", "/b", "/c", "#region", "/d"] none
    program.regions.map Region.title = [("", false), ("R", false), ("", false)] ∧
      program.commands.map Command.region = [0, 1, 1, 2] := by
  decide +kernel

end Program

end Choreo
