import Choreo.Proofs.Script.Layout

/-!
# Asking for a region

A script is compiled as a whole, without what stands under marked headings, or for the regions of one
name. What both have of the regions of that name is the same: whether a line counts depends on the last
marker before it alone, and what it says depends on no other line but the last default.
-/

namespace Choreo

namespace Program

def commandsIn (program : Program) (p : Region → Bool) : List Command :=
  program.commands.filter fun c => (program.regionOf? c).any p

def titleOf? (program : Program) (c : Command) : Option (String × Bool) :=
  (program.regionOf? c).map Region.title

end Program

namespace Language

/-! ## What is found in lines -/

variable {α β : Type} {find : List String → String → Option α} {filter : Option String}
  {lines : List String}

theorem filterMap_lookBack (find : List String → String → Option α) (f : α → Option β)
    (lines : List String) :
    (lookBack find lines).filterMap f = lookBack (fun before line => (find before line).bind f)
      lines := by
  induction lines using List.reverseRecOn with
  | nil => rfl
  | append_singleton lines line ih =>
    rw [lookBack_concat, lookBack_concat, List.filterMap_append, ih]
    cases find lines line with
    | none => rfl
    | some found =>
      rw [Option.toList_some, List.filterMap_cons, Option.bind_some]
      cases f found <;> rfl

theorem map_lookBack (find : List String → String → Option α) (f : α → β) (lines : List String) :
    (lookBack find lines).map f = lookBack (fun before line => (find before line).map f) lines := by
  have hmap := filterMap_lookBack find (some ∘ f) lines
  rw [List.filterMap_eq_map] at hmap
  simpa only [Option.map_eq_bind] using hmap

theorem map_filter_const (found : Option α) (p : Bool) (f : α → β) :
    (found.filter fun _ => p).map f = (found.map f).filter fun _ => p := by
  rw [Option.filter_map]
  rfl

theorem lookBack_congr {find' : List String → String → Option α}
    (hsame : ∀ before line after, lines = before ++ line :: after →
      find before line = find' before line) :
    lookBack find lines = lookBack find' lines := by
  induction lines using List.reverseRecOn with
  | nil => rfl
  | append_singleton lines line ih =>
    rw [lookBack_concat, lookBack_concat, hsame lines line [] rfl, ih]
    intro before line' after hlines
    apply hsame before line' (after ++ [line])
    rw [hlines, List.append_assoc, List.cons_append]

theorem before_eq_of_length {before before' after after' : List String} {line line' : String}
    (hlines : before ++ line :: after = before' ++ line' :: after')
    (hlength : before.length = before'.length) : before = before' :=
  (List.append_inj hlines hlength).1

/-! ## The headings of commands -/

/-- A command and the heading it stands under, as one finds them by looking back. -/
def headed? (filter : Option String) (before : List String) (line : String) :
    Option (Emission × Option (String × Bool)) :=
  (emission? filter before line).map fun e => (e, some (Heading.title (region before)))

/-- The regions tell the heading that every command stands under. -/
structure Heads (filter : Option String) (lines : List String) (r : Reading) : Prop where
  commands : r.program.commands.map (fun c => (emission c, r.program.titleOf? c)) =
    lookBack (headed? filter) lines
  current : r.fresh = false →
    (r.program.regions.map Region.title).getLast? = some (Heading.title r.heading)

theorem titleOf?_eq (program : Program) (c : Command) :
    program.titleOf? c = (program.regions.map Region.title)[c.region]? := by
  rw [List.getElem?_map]
  rfl

variable {r : Reading} {number : Nat}

theorem titles_command (hopened : r.fresh = false → r.program.regions ≠ []) (number : Nat)
    (text : List Char) (wait : Duration) :
    (r.command number text wait).program.regions.map Region.title =
      r.program.regions.map Region.title ++ if r.fresh then [Heading.title r.heading] else [] := by
  rcases r.command_regions hopened number text wait with
    ⟨hfresh, hregions⟩ | ⟨earlier, region, hfresh, hold, hregions⟩
  · rw [hregions, List.map_append, if_pos hfresh]
    rfl
  · rw [hregions, hold, hfresh, List.map_append, List.map_append, List.append_assoc]
    rfl

/-- A command joins a region of its heading. -/
theorem Heads.titleOf?_received (h : Heads filter lines r)
    (hopened : r.fresh = false → r.program.regions ≠ []) (text : List Char) (wait : Duration) :
    (r.command number text wait).program.titleOf? (r.received number text wait) =
      some (Heading.title r.heading) := by
  rw [titleOf?_eq, titles_command hopened]
  show _[r.regionAt]? = _
  unfold Reading.regionAt
  cases hfresh : r.fresh with
  | true =>
    rw [if_pos rfl, if_pos rfl]
    have hlength : (r.program.regions.map Region.title).length = r.program.regions.length :=
      List.length_map _
    rw [← hlength, List.getElem?_concat_length]
  | false =>
    have hcurrent := h.current hfresh
    rw [List.getLast?_eq_getElem?, List.length_map] at hcurrent
    simpa using hcurrent

theorem Heads.command (h : Heads filter lines r) (hshaped : r.Shaped number) {line : String}
    (text : List Char) (wait : Duration)
    (hheaded : headed? filter lines line =
      some (emission (r.received number text wait), some (Heading.title r.heading))) :
    Heads filter (lines ++ [line]) (r.command number text wait) := by
  have htitles := titles_command hshaped.opened number text wait
  refine ⟨?_, ?_⟩
  · rw [lookBack_concat, hheaded, ← h.commands, Reading.commands_eq_concat, List.map_append,
      List.map_singleton, h.titleOf?_received hshaped.opened, Option.toList_some]
    congr 1
    apply List.map_congr_left
    intro c hc
    have hlt := hshaped.region_lt hc
    rw [titleOf?_eq, titleOf?_eq, htitles, List.getElem?_append_left (by rwa [List.length_map])]
  · intro _
    rw [htitles]
    show _ = some (Heading.title r.heading)
    cases hfresh : r.fresh with
    | true => rw [if_pos rfl, List.getLast?_concat]
    | false => rw [if_neg Bool.false_ne_true, List.append_nil, h.current hfresh]

theorem Heads.of_lines (filter : Option String) (lines : List String) :
    Heads filter lines (({} : Reading).lines (Heading.filter? filter) 1 lines) := by
  induction lines using List.reverseRecOn with
  | nil => exact ⟨rfl, nofun⟩
  | append_singleton lines line ih =>
    have hreads := Reads.of_lines filter lines
    have hnext := (Reads.of_lines filter (lines ++ [line])).commands
    have hshaped := Reading.Shaped.of_lines (Heading.filter? filter) lines
    rw [readingLines_concat, Nat.add_comm, lookBack_concat, ← hreads.commands] at hnext
    rw [readingLines_concat, Nat.add_comm]
    generalize ({} : Reading).lines (Heading.filter? filter) 1 lines = r at *
    -- A line that leaves no command behind has none by looking back either.
    have hskip {r' : Reading} (hline : r.line (Heading.filter? filter) (lines.length + 1) line = r')
        (hprogram : r'.program = r.program)
        (hcurrent : r'.fresh = false → r.fresh = false ∧ r'.heading = r.heading) :
        Heads filter (lines ++ [line]) r' := by
      rw [hline, hprogram, List.self_eq_append_right, Option.toList_eq_nil_iff] at hnext
      refine ⟨?_, fun hfresh => ?_⟩
      · rw [hprogram, ih.commands, lookBack_concat, headed?, hnext]
        simp
      · rw [hprogram, (hcurrent hfresh).2]
        exact ih.current (hcurrent hfresh).1
    rcases r.line_cases (Heading.filter? filter) (lines.length + 1) line with
      heq | ⟨heading, heq, -⟩ | ⟨wait, heq⟩ | ⟨-, text, wait, heq⟩
    · rw [heq]
      exact hskip heq rfl fun hfresh => ⟨hfresh, rfl⟩
    · rw [heq]
      exact hskip heq rfl nofun
    · rw [heq]
      exact hskip heq rfl fun hfresh => ⟨hfresh, rfl⟩
    · rw [heq, Reading.commands_eq_concat, List.map_append, List.append_cancel_left_eq] at hnext
      have hemission : emission? filter lines line =
          some (emission (r.received (lines.length + 1) text wait)) := by
        cases hemission : emission? filter lines line with
        | none => rw [hemission] at hnext; cases hnext
        | some e =>
          rw [hemission] at hnext
          exact congrArg some (List.singleton_inj.1 hnext).symm
      rw [heq]
      apply ih.command hshaped
      rw [headed?, hemission, hreads.heading]
      rfl

/-- What the commands of some regions say is found by looking back at the lines under the headings of
those regions. -/
theorem emissions_commandsIn (filter : Option String) (lines : List String)
    (p : String × Bool → Bool) :
    ((Program.compile lines filter).commandsIn fun region => p region.title).map emission =
      lookBack (fun before line =>
        (emission? filter before line).filter fun _ => p (Heading.title (region before))) lines := by
  have hheads : (Program.compile lines filter).commands.map
      (fun c => (emission c, (Program.compile lines filter).titleOf? c)) =
        lookBack (headed? filter) lines :=
    (Heads.of_lines filter lines).commands
  have hchosen := congrArg
    (List.filterMap fun x : Emission × Option (String × Bool) =>
      if x.2.any p then some x.1 else none) hheads
  rw [filterMap_lookBack, List.filterMap_map] at hchosen
  calc ((Program.compile lines filter).commandsIn fun region => p region.title).map emission
      = (Program.compile lines filter).commands.filterMap _ := ?_
    _ = _ := hchosen
    _ = _ := ?_
  · unfold Program.commandsIn Program.titleOf?
    rw [← List.filterMap_eq_filter, List.map_filterMap]
    apply List.filterMap_congr
    intro c _
    simp only [Option.guard, Function.comp_apply, Option.any_map]
    split <;> rfl
  · apply lookBack_congr
    intro before line after _
    unfold headed?
    cases emission? filter before line with
    | none => rfl
    | some e => simp [Option.filter]

/-! ## Two programs of one script -/

def Emission.said (e : Emission) : Nat × String × Directive := (e.line, e.text, e.directive)

variable {filter' : Option String} {before : List String} {line : String}

theorem said_emission?_congr (hcontent : content? filter before line = content? filter' before line) :
    (emission? filter before line).map Emission.said =
      (emission? filter' before line).map Emission.said := by
  unfold emission?
  rw [hcontent]
  cases content? filter' before line with
  | none => rfl
  | some text =>
    simp only
    split <;> rfl

theorem emission?_congr (hcontent : content? filter before line = content? filter' before line)
    (hdefault : defaultWait? filter before = defaultWait? filter' before) :
    emission? filter before line = emission? filter' before line := by
  unfold emission?
  rw [hcontent, hdefault]

theorem defaultWait?_eq_none (filter : Option String)
    (hnone : ∀ line ∈ lines, ∀ wait, Statement.of (Text.trim line.toList) ≠ .defaultWait wait) :
    defaultWait? filter lines = none := by
  induction lines using List.reverseRecOn with
  | nil => rfl
  | append_singleton lines line ih =>
    have hline : (content? filter lines line).bind defaultArgument? = none := by
      unfold content?
      simp only
      split
      · have hstatement := hnone line (List.mem_append_right _ (List.mem_singleton_self line))
        unfold Statement.of at hstatement
        simp only at hstatement
        rw [wordArgument?_eq] at hstatement
        rw [Option.bind_some]
        cases hargument : defaultArgument? (Comment.strip (Text.trim line.toList)) with
        | none => rfl
        | some argument =>
          rw [hargument] at hstatement
          exact absurd rfl (hstatement _)
      · rfl
    rw [defaultWait?_concat, hline]
    exact ih fun line hline => hnone line (List.mem_append_left _ hline)

theorem wanted?_marked {name : String} (hname : name ≠ "") :
    wanted? (some (":" ++ name)) = some name := by
  have hlist : (":" ++ name).toList = ':' :: name.toList := by
    rw [String.toList_append]
    rfl
  have hne : name.toList ≠ [] := by
    intro hempty
    exact hname (String.toList_inj.1 hempty)
  simp only [wanted?, hlist, List.head?_cons, if_true, List.tail_cons, if_neg hne,
    String.ofList_toList]

/-- Without a name the lines of a region count that has no mark. With one those of its regions count,
marked or not. -/
theorem selected_marked {name : String} (hname : name ≠ "") (heading : Option Heading) :
    Selected (some (":" ++ name)) heading = heading.any (·.name == name) := by
  rw [Selected, wanted?_marked hname]

/-- The lines under an unmarked heading count alike for the script and for the heading's name. -/
theorem plain_congr {name : String} (hname : name ≠ "") {whole asked : Option α}
    (hwhole : Selected none (region before) = false → whole = none)
    (hasked : Selected (some (":" ++ name)) (region before) = false → asked = none)
    (hsame : region before = some ⟨name, false⟩ → whole = asked) :
    whole.filter (fun _ => (Heading.title (region before)).1 == name) =
      asked.filter fun _ => !(Heading.title (region before)).2 := by
  cases hregion : region before with
  | none =>
    have hempty : ("" == name) = false := beq_eq_false_iff_ne.2 hname.symm
    have hother : asked = none := by
      apply hasked
      rw [hregion, selected_marked hname]
      rfl
    rw [hother]
    cases whole with
    | none => rfl
    | some found => simp [Heading.title, hempty]
  | some heading =>
    obtain ⟨other, named⟩ := heading
    cases named with
    | true =>
      have hother : whole = none := by
        apply hwhole
        rw [hregion]
        rfl
      rw [hother]
      cases asked with
      | none => rfl
      | some found => rfl
    | false =>
      by_cases hother : other = name
      · subst hother
        rw [hsame hregion]
        cases asked with
        | none => rfl
        | some found => simp [Heading.title]
      · have hnone : asked = none := by
          apply hasked
          rw [hregion, selected_marked hname]
          exact beq_eq_false_iff_ne.2 hother
        rw [hnone]
        cases whole with
        | none => rfl
        | some found => simp [Heading.title, hother]

theorem content?_of_plain {name : String} (hname : name ≠ "")
    (hregion : region before = some ⟨name, false⟩) (line : String) :
    content? none before line = content? (some (":" ++ name)) before line := by
  have hselected : Selected (some (":" ++ name)) (some ⟨name, false⟩) = true := by
    rw [selected_marked hname]
    exact beq_iff_eq.2 rfl
  unfold content?
  rw [hregion, hselected]
  rfl

theorem emission?_eq_none (hselected : Selected filter (region before) = false) (line : String) :
    emission? filter before line = none := by
  have hcontent : content? filter before line = none :=
    if_neg fun h => Bool.false_ne_true (hselected.symm.trans h.2.2)
  rw [emission?, hcontent]

/-- The mark of the region of a command is that of the last marker before its line. -/
theorem exists_line_of_mem_commandsIn {p : String × Bool → Bool} {c : Command}
    (hc : c ∈ (Program.compile lines filter).commandsIn fun region => p region.title) :
    ∃ before line after, lines = before ++ line :: after ∧ c.line = before.length + 1 ∧
      Selected filter (region before) = true ∧ p (Heading.title (region before)) = true := by
  have hemitted := List.mem_map_of_mem (f := emission) hc
  rw [emissions_commandsIn] at hemitted
  obtain ⟨before, line, after, hlines, hfound⟩ := exists_of_mem_lookBack hemitted
  obtain ⟨hemission, htitle⟩ := Option.filter_eq_some_iff.1 hfound
  refine ⟨before, line, after, hlines, line_of_emission? hemission, ?_, htitle⟩
  by_contra hselected
  rw [emission?_eq_none (Bool.eq_false_of_not_eq_true hselected)] at hemission
  cases hemission

end Language

namespace Program

open Choreo.Language

theorem mem_commandsIn_of_mem {filter : Option String} {lines : List String} {c : Command}
    (hc : c ∈ (compile lines filter).commands) :
    c ∈ (compile lines filter).commandsIn fun _ => true := by
  obtain ⟨i, hi⟩ := List.getElem?_of_mem hc
  obtain ⟨region, hregion⟩ := (shaped_compile lines filter).exists_regionOf? hi
  refine List.mem_filter.2 ⟨hc, ?_⟩
  rw [regionOf?, hregion]
  rfl

/-- The regions of a name are the same for the script as a whole and for the name, as long as they are
not marked. Their waits are too, unless there are lines that set the default. The marked ones have no
line in common with the script as a whole. -/
theorem compile_agrees (lines : List String) {name : String} (hname : name ≠ "") :
    let whole := (compile lines none).commandsIn (·.name == name)
    let asked := (compile lines (some (":" ++ name))).commandsIn (!·.named)
    whole.map (fun c => (c.line, c.text, c.directive)) =
        asked.map (fun c => (c.line, c.text, c.directive)) ∧
      ((∀ line ∈ lines, ∀ wait, Statement.of (Text.trim line.toList) ≠ .defaultWait wait) →
        whole.map Command.wait = asked.map Command.wait) ∧
      ∀ c ∈ (compile lines none).commands,
        ∀ d ∈ (compile lines (some (":" ++ name))).commandsIn (·.named), c.line ≠ d.line := by
  intro whole asked
  have hwhole : whole.map emission = _ :=
    emissions_commandsIn none lines fun title => title.1 == name
  have hasked : asked.map emission = _ :=
    emissions_commandsIn (some (":" ++ name)) lines fun title => !title.2
  refine ⟨?_, ?_, ?_⟩
  · have hsaid : (whole.map emission).map Emission.said = (asked.map emission).map Emission.said := by
      rw [hwhole, hasked, map_lookBack, map_lookBack]
      apply lookBack_congr
      intro before line after _
      rw [map_filter_const, map_filter_const]
      apply plain_congr hname
      · intro hselected
        rw [emission?_eq_none hselected, Option.map_none]
      · intro hselected
        rw [emission?_eq_none hselected, Option.map_none]
      · intro hregion
        exact said_emission?_congr (content?_of_plain hname hregion line)
    rw [List.map_map, List.map_map] at hsaid
    exact hsaid
  · intro hnone
    have hsame : whole.map emission = asked.map emission := by
      rw [hwhole, hasked]
      apply lookBack_congr
      intro before line after hlines
      have hbefore : ∀ line ∈ before, ∀ wait,
          Statement.of (Text.trim line.toList) ≠ .defaultWait wait := by
        intro line hline
        apply hnone line
        rw [hlines]
        exact List.mem_append_left _ hline
      apply plain_congr hname
      · exact fun hselected => emission?_eq_none hselected line
      · exact fun hselected => emission?_eq_none hselected line
      · intro hregion
        apply emission?_congr (content?_of_plain hname hregion line)
        rw [defaultWait?_eq_none none hbefore, defaultWait?_eq_none _ hbefore]
    have hwait := congrArg (List.map Emission.wait) hsame
    rw [List.map_map, List.map_map] at hwait
    exact hwait
  · intro c hc d hd hline
    obtain ⟨before, l, after, hlines, hcline, hselected, -⟩ :=
      exists_line_of_mem_commandsIn (p := fun _ => true) (mem_commandsIn_of_mem hc)
    obtain ⟨before', l', after', hlines', hdline, -, hmarked⟩ :=
      exists_line_of_mem_commandsIn (p := fun title => title.2) hd
    have hbefore : before = before' :=
      before_eq_of_length (hlines.symm.trans hlines') (by omega)
    subst hbefore
    cases hregion : region before with
    | none =>
      rw [hregion] at hmarked
      cases hmarked
    | some heading =>
      have hmark : heading.named = true := by
        rw [hregion] at hmarked
        exact hmarked
      have hplain : (!heading.named) = true := by
        rw [hregion] at hselected
        exact hselected
      rw [hmark] at hplain
      cases hplain

/-- A plain and a marked region of one name, and the script around them. -/
theorem compile_agrees_on_regions_of_one_name :
    let lines := ["/smile", "#region R", "/a", "#region :R", "/b <wait.2>", "#region R", "/c"]
    "R" ≠ "" ∧
      ((compile lines none).commandsIn (·.name == "R")).map (fun c => (c.line, c.text)) =
        [(3, "/a"), (7, "/c")] ∧
      ((compile lines none).commandsIn (·.name == "R")).map
          (fun c => (c.line, c.text, c.directive)) =
        ((compile lines (some (":" ++ "R"))).commandsIn (!·.named)).map
          (fun c => (c.line, c.text, c.directive)) ∧
      (∀ line ∈ lines, ∀ wait, Statement.of (Text.trim line.toList) ≠ .defaultWait wait) ∧
      ((compile lines none).commandsIn (·.name == "R")).map Command.wait =
        ((compile lines (some (":" ++ "R"))).commandsIn (!·.named)).map Command.wait := by
  intro lines
  have hname : "R" ≠ "" := by decide
  have hnone : ∀ line ∈ lines, ∀ wait,
      Statement.of (Text.trim line.toList) ≠ .defaultWait wait := by
    have hcommands : ∀ line ∈ lines, Statement.of (Text.trim line.toList) =
        .command (WaitToken.remove (Comment.strip (Text.trim line.toList)))
          (WaitToken.wait? (Comment.strip (Text.trim line.toList))) := by
      decide +kernel
    intro line hline wait
    rw [hcommands line hline]
    exact nofun
  obtain ⟨hsaid, hwaits, -⟩ := compile_agrees lines hname
  exact ⟨hname, by decide +kernel, hsaid, hnone, hwaits hnone⟩

end Program

end Choreo
