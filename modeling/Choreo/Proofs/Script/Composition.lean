import Choreo.Proofs.Script.Layout

/-!
# Programs one after the other

What is compiled from the first lines of a script stays when more lines follow, except that the last
region may go on. A line that closes every region and one that clears the default make the compiler
forget what it knows. So the program of two scripts with these lines between them is the one program
followed by the other, and the place of the second script shows in nothing but its numbers.
-/

namespace Choreo

def Command.after (lines regions : Nat) (c : Command) : Command :=
  { c with line := lines + c.line, region := regions + c.region }

def Region.after (lines : Nat) (region : Region) : Region :=
  { region with startLine := lines + region.startLine, endLine := lines + region.endLine }

theorem Region.absorb_after (region : Region) (lines number : Nat) (wait : Duration) :
    (region.after lines).absorb (lines + number) wait =
      (region.absorb number wait).after lines := by
  simp only [absorb, after, Nat.add_min_add_left, Nat.add_max_add_left]

/-- The program with another one behind it, whose script has some lines before it. -/
def Program.followedBy (p : Program) (lines : Nat) (q : Program) : Program :=
  { commands := p.commands ++ q.commands.map (Command.after lines p.regions.length)
    regions := p.regions ++ q.regions.map (Region.after lines) }

def Reading.after (p : Program) (lines : Nat) (r : Reading) : Reading :=
  { r with program := p.followedBy lines r.program }

/-! ## Programs that go on -/

/-- More commands and regions come behind those of a program, and its last region may go on. -/
structure Program.GoesOn (p q : Program) : Prop where
  commands : p.commands <+: q.commands
  regions : ∀ i region, p.regions[i]? = some region → ∃ region', q.regions[i]? = some region' ∧
    region' = { region with endLine := region'.endLine, wait := region'.wait } ∧
    (i + 1 < p.regions.length → region' = region)

namespace Program.GoesOn

variable {p q r : Program}

theorem refl (p : Program) : p.GoesOn p :=
  ⟨List.prefix_refl _, fun _ region hregion => ⟨region, hregion, rfl, fun _ => rfl⟩⟩

theorem length_le (h : p.GoesOn q) : p.regions.length ≤ q.regions.length := by
  by_contra hlt
  have hlt : q.regions.length < p.regions.length := Nat.lt_of_not_le hlt
  obtain ⟨region', hregion', -⟩ := h.regions _ _ (List.getElem?_eq_getElem hlt)
  rw [List.getElem?_eq_none le_rfl] at hregion'
  cases hregion'

theorem trans (hpq : p.GoesOn q) (hqr : q.GoesOn r) : p.GoesOn r := by
  refine ⟨hpq.commands.trans hqr.commands, fun i region hregion => ?_⟩
  obtain ⟨region', hregion', heq, hsame⟩ := hpq.regions i region hregion
  obtain ⟨region'', hregion'', heq', hsame'⟩ := hqr.regions i region' hregion'
  refine ⟨region'', hregion'', ?_, fun hlast => ?_⟩
  · rw [heq', heq]
  · rw [hsame' (hlast.trans_le hpq.length_le), hsame hlast]

end Program.GoesOn

namespace Reading

variable {r : Reading} {number : Nat}

theorem Shaped.goesOn_command (h : r.Shaped number) (text : List Char) (wait : Duration) :
    r.program.GoesOn (r.command number text wait).program := by
  refine ⟨?_, fun i region hregion => ?_⟩
  · rw [commands_eq_concat]
    exact List.prefix_append _ _
  · rcases r.command_regions h.opened number text wait with
      ⟨-, hregions⟩ | ⟨earlier, last, -, hold, hregions⟩
    · have hlt := (List.getElem?_eq_some_iff.1 hregion).1
      refine ⟨region, ?_, rfl, fun _ => rfl⟩
      rw [hregions, List.getElem?_append_left hlt, hregion]
    · rw [hold] at hregion ⊢
      rw [hregions]
      rcases Nat.lt_or_ge i earlier.length with hlt | hge
      · rw [List.getElem?_append_left hlt] at hregion ⊢
        exact ⟨region, hregion, rfl, fun _ => rfl⟩
      · have hlast : i = earlier.length := by
          have hbound := (List.getElem?_eq_some_iff.1 hregion).1
          rw [List.length_append, List.length_singleton] at hbound
          omega
        subst hlast
        rw [List.getElem?_concat_length] at hregion ⊢
        obtain rfl : last = region := Option.some.inj hregion
        -- The region has started before this line, so it goes on without starting anew.
        have hstart : r.program.startOf? earlier.length = some last.startLine := by
          rw [Program.startOf?, hold, List.getElem?_concat_length]
          rfl
        have hstarted := h.startOf?_lt hstart
        refine ⟨last.absorb number wait, rfl, ?_, fun hless => ?_⟩
        · unfold Region.absorb
          rw [Nat.min_eq_left hstarted.le]
        · rw [List.length_append, List.length_singleton] at hless
          omega

theorem Shaped.goesOn_line (h : r.Shaped number) (filter : Option String) (line : String) :
    r.program.GoesOn (r.line filter number line).program := by
  rcases line_cases filter r number line with
    heq | ⟨heading, heq, -⟩ | ⟨wait, heq⟩ | ⟨-, text, wait, heq⟩
  · rw [heq]
    exact .refl _
  · rw [heq]
    exact .refl _
  · rw [heq]
    exact .refl _
  · rw [heq]
    exact h.goesOn_command text wait

theorem Shaped.goesOn_lines (h : r.Shaped number) (filter : Option String) (lines : List String) :
    r.program.GoesOn (r.lines filter number lines).program := by
  induction lines generalizing r number with
  | nil => exact .refl _
  | cons first rest ih => exact (h.goesOn_line filter first).trans (ih (h.line filter first))

/-! ## Lines that come later -/

theorem regionAt_after (hopened : r.fresh = false → r.program.regions ≠ []) (p : Program)
    (lines : Nat) : (r.after p lines).regionAt = p.regions.length + r.regionAt := by
  simp only [regionAt, after, Program.followedBy, List.length_append, List.length_map]
  cases hfresh : r.fresh with
  | true => rfl
  | false =>
    have hpos := List.length_pos_of_ne_nil (hopened hfresh)
    simp only [Bool.false_eq_true, if_false]
    omega

theorem regions_command_after (hopened : r.fresh = false → r.program.regions ≠ []) (p : Program)
    (lines number : Nat) (text : List Char) (wait : Duration) :
    ((r.after p lines).command (lines + number) text wait).program.regions =
      p.regions ++ (r.command number text wait).program.regions.map (Region.after lines) := by
  have hopened' : (r.after p lines).fresh = false → (r.after p lines).program.regions ≠ [] := by
    intro hfresh hnone
    exact hopened hfresh (List.map_eq_nil_iff.1 (List.append_eq_nil_iff.1 hnone).2)
  rcases r.command_regions hopened number text wait with
    ⟨hfresh, hregions⟩ | ⟨earlier, last, hfresh, hold, hregions⟩ <;>
  rcases (r.after p lines).command_regions hopened' (lines + number) text wait with
    ⟨hfresh', hregions'⟩ | ⟨earlier', last', hfresh', hold', hregions'⟩
  · rw [hregions, hregions', List.map_append, ← List.append_assoc, List.map_singleton,
      ← Region.absorb_after]
    rfl
  · exact absurd (hfresh.symm.trans hfresh') (by decide)
  · exact absurd (hfresh.symm.trans hfresh') (by decide)
  · have hsplit : (p.regions ++ earlier.map (Region.after lines)) ++ [last.after lines] =
        earlier' ++ [last'] := by
      rw [← hold', List.append_assoc, ← List.map_singleton, ← List.map_append, ← hold]
      rfl
    obtain ⟨hearlier, hlast⟩ := List.append_inj' hsplit rfl
    rw [hregions, hregions', ← hearlier, ← List.singleton_inj.1 hlast, List.map_append,
      ← List.append_assoc, List.map_singleton, Region.absorb_after]

theorem command_after (hopened : r.fresh = false → r.program.regions ≠ []) (p : Program)
    (lines number : Nat) (text : List Char) (wait : Duration) :
    (r.after p lines).command (lines + number) text wait =
      (r.command number text wait).after p lines := by
  have hreceived : (r.after p lines).received (lines + number) text wait =
      (r.received number text wait).after lines p.regions.length := by
    unfold received
    rw [regionAt_after hopened]
    rfl
  have hcommands : ((r.after p lines).command (lines + number) text wait).program.commands =
      ((r.command number text wait).after p lines).program.commands := by
    show _ = p.commands ++ List.map _ (r.command number text wait).program.commands
    rw [commands_eq_concat, commands_eq_concat, hreceived, List.map_append, List.map_singleton,
      ← List.append_assoc]
    rfl
  have hregions := regions_command_after hopened p lines number text wait
  have hprogram : ((r.after p lines).command (lines + number) text wait).program =
      ((r.command number text wait).after p lines).program :=
    congrArg₂ Program.mk hcommands hregions
  exact congrArg (fun program => { r with program, fresh := false }) hprogram

theorem line_after (hopened : r.fresh = false → r.program.regions ≠ []) (p : Program)
    (lines number : Nat) (filter : Option String) (line : String) :
    (r.after p lines).line filter (lines + number) line =
      (r.line filter number line).after p lines := by
  unfold Reading.line
  simp only
  split
  · rfl
  · rfl
  · rfl
  · rw [apply_ite (Reading.after p lines)]
    refine if_congr Iff.rfl ?_ rfl
    unfold content
    split
    · rfl
    · exact command_after hopened p lines number _ _

/-- Where a script stands shows in nothing but numbers, and no line looks at the program before it. -/
theorem lines_after (h : r.Shaped number) (p : Program) (lines : Nat) (filter : Option String)
    (ys : List String) :
    (r.after p lines).lines filter (lines + number) ys =
      (r.lines filter number ys).after p lines := by
  induction ys generalizing r number with
  | nil => rfl
  | cons y ys ih =>
    rw [Reading.lines, line_after h.opened, Nat.add_assoc, ih (h.line filter y), Reading.lines]

/-- After a line that closes every region and one that clears the default, nothing is known but the
program. -/
theorem line_line_eq (r : Reading) (number number' : Nat) :
    (r.line none number "#endregion").line none number' "/defaultwait" =
      { program := r.program } := by
  have hcloses : LineKind.of (Text.trim "#endregion".toList) = .closes := by decide +kernel
  have hcontent : LineKind.of (Text.trim "/defaultwait".toList) = .content := by decide +kernel
  have hclears : Statement.of (Text.trim "/defaultwait".toList) = .defaultWait none := by
    decide +kernel
  simp only [line, hcloses, hcontent, mark, Heading.selected, if_true, content, hclears]

end Reading

namespace Program

theorem followedBy_empty (p : Program) (lines : Nat) : p.followedBy lines {} = p := by
  simp [followedBy]

/-- More lines leave the program of the first ones as it is, but for its last region. Lines between two
scripts that close the regions and clear the default keep the scripts apart. -/
theorem compile_append (xs ys : List String) :
    (∀ filter, (compile xs filter).GoesOn (compile (xs ++ ys) filter)) ∧
      compile (xs ++ ["#endregion", "/defaultwait"] ++ ys) none =
        (compile xs none).followedBy (xs.length + 2) (compile ys none) := by
  refine ⟨fun filter => ?_, ?_⟩
  · have hshaped := Reading.Shaped.of_lines (Heading.filter? filter) xs
    unfold compile
    rw [Language.readingLines_append, Nat.add_comm 1]
    exact hshaped.goesOn_lines _ ys
  · have hnone : Heading.filter? none = none := rfl
    have hempty : ({} : Reading).Shaped 1 := Reading.Shaped.of_lines none []
    have hlength : 1 + (xs ++ ["#endregion", "/defaultwait"]).length = xs.length + 2 + 1 := by
      rw [List.length_append]
      show 1 + (xs.length + 2) = _
      omega
    have hforgotten : ({} : Reading).lines none 1 (xs ++ ["#endregion", "/defaultwait"]) =
        ({} : Reading).after (compile xs none) (xs.length + 2) := by
      have hkept := Reading.line_line_eq (({} : Reading).lines none 1 xs) (1 + xs.length)
        (1 + xs.length + 1)
      rw [Language.readingLines_append, Reading.after, followedBy_empty]
      exact hkept
    show (({} : Reading).lines none 1 (xs ++ ["#endregion", "/defaultwait"] ++ ys)).program = _
    rw [Language.readingLines_append, hforgotten, hlength, Reading.lines_after hempty]
    rfl

/-- Whatever is open and whatever the default is, the lines in between end it. -/
example :
    let xs := ["/defaultwait 5", "#region :Encore", "/a", "#region Verse", "/b"]
    (compile (xs ++ ["#endregion", "/defaultwait"] ++ ["/c", "#region R", "/d"]) none).commands.map
        (fun c => (c.line, c.region, c.wait.nanos)) =
      [(5, 0, 5000000000), (8, 1, 10000000), (10, 2, 10000000)] := by
  decide +kernel

end Program

end Choreo
