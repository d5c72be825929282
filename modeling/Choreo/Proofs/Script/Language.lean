import Choreo.Script.Program
import Mathlib.Data.List.Basic
import Mathlib.Data.List.Induction

/-!
# The language of scripts

What a line of a script means is told here by looking back at the lines before it: the last marker
decides whether the line counts, and the last default whose line counts gives the wait of a line that
has none of its own. The compiler goes through the lines once and remembers four things on its way.
`compile_eq_lookBack` says that both agree on every line.
-/

namespace Choreo.Language

/-! ## Single lines -/

def unmarked (text : List Char) : List Char :=
  if text.head? = some ':' then Text.trim text.tail else text

/-- A heading as it stands after `#region `, if there is any name in it. -/
def opened? (line : List Char) : Option Heading :=
  if "#region ".toList <+: line ∧ unmarked (Text.trim (line.drop 8)) ≠ [] then
    some
      { name := String.ofList (unmarked (Text.trim (line.drop 8)))
        named := (Text.trim (line.drop 8)).head? = some ':' }
  else none

def Closes (line : List Char) : Prop :=
  line = "#region".toList ∨ "#endregion".toList <+: line

instance (line : List Char) : Decidable (Closes line) := inferInstanceAs (Decidable (_ ∨ _))

/-- The region that a marker opens, or none if it only closes one. -/
def marker? (line : List Char) : Option (Option Heading) :=
  match opened? line with
  | some heading => some (some heading)
  | none => if Closes line then some none else none

def wanted? (filter : Option String) : Option String :=
  match filter with
  | none => none
  | some text =>
    let name := if text.toList.head? = some ':' then text.toList.tail else text.toList
    if name = [] then none else some (String.ofList name)

def Selected (filter : Option String) (region : Option Heading) : Bool :=
  match wanted? filter with
  | none => region.all (!·.named)
  | some name => region.any (·.name == name)

def defaultArgument? (text : List Char) : Option (List Char) :=
  if "/defaultwait".toList <+: text ∧ (text.drop 12).head?.all Text.isBlank then
    some (Text.trim (text.drop 12))
  else none

/-- The last tag of a line or, if it has none, its last word. -/
def waitArgument? (text : List Char) : Option (List Char) :=
  (Piece.arguments (WaitToken.tags text)).getLast?.or
    (Piece.arguments (WaitToken.words text)).getLast?

/-! ## Looking back -/

/-- What is found in each line, given the lines before it. -/
def lookBack {α : Type} (find : List String → String → Option α) (lines : List String) : List α :=
  (List.range lines.length).filterMap fun i => lines[i]?.bind (find (lines.take i))

/-- The region that is open after some lines: the last marker tells. -/
def region (lines : List String) : Option Heading :=
  (lines.filterMap fun line => marker? (Text.trim line.toList)).getLast?.join

/-- The line without its comment, if it counts and is neither blank nor begins with `#`. -/
def content? (filter : Option String) (before : List String) (line : String) :
    Option (List Char) :=
  let line := Text.trim line.toList
  if line ≠ [] ∧ line.head? ≠ some '#' ∧ Selected filter (region before) then
    some (Comment.strip line)
  else none

/-- The default wait after some lines: that of the last line which sets it, if it can be read. -/
def defaultWait? (filter : Option String) (lines : List String) : Option Duration :=
  (lookBack (fun before line => (content? filter before line).bind defaultArgument?)
    lines).getLast?.bind Duration.ofSecondsText?

structure Emission where
  line : Nat
  text : String
  directive : Directive
  wait : Duration
deriving DecidableEq

def emission? (filter : Option String) (before : List String) (line : String) : Option Emission :=
  match content? filter before line with
  | none => none
  | some text =>
    if (defaultArgument? text).isSome then none
    else some
      { line := before.length + 1
        text := String.ofList (WaitToken.remove text)
        directive := .classify (WaitToken.remove text)
        wait := ((waitArgument? text).bind Duration.ofSecondsText?).getD
          ((defaultWait? filter before).getD (.ofMillis 10)) }

def emission (c : Command) : Emission :=
  { line := c.line, text := c.text, directive := c.directive, wait := c.wait }

variable {line : List Char} {filter : Option String}

theorem lookBack_concat {α : Type} (find : List String → String → Option α)
    (lines : List String) (line : String) :
    lookBack find (lines ++ [line]) = lookBack find lines ++ (find lines line).toList := by
  have hearlier : (List.range lines.length).filterMap
      (fun i => (lines ++ [line])[i]?.bind (find ((lines ++ [line]).take i))) =
      lookBack find lines := by
    apply List.filterMap_congr
    intro i hi
    have hlt : i < lines.length := List.mem_range.1 hi
    rw [List.getElem?_append_left hlt, List.take_append_of_le_length (Nat.le_of_lt hlt)]
  have hlast : [lines.length].filterMap
      (fun i => (lines ++ [line])[i]?.bind (find ((lines ++ [line]).take i))) =
      (find lines line).toList := by
    rw [List.filterMap_cons, List.getElem?_concat_length, List.take_left, Option.bind_some]
    cases find lines line <;> rfl
  rw [lookBack, List.length_append, List.length_singleton, List.range_succ, List.filterMap_append,
    hearlier, hlast]

theorem exists_of_mem_lookBack {α : Type} {find : List String → String → Option α}
    {lines : List String} {found : α} (hfound : found ∈ lookBack find lines) :
    ∃ before line after, lines = before ++ line :: after ∧ find before line = some found := by
  obtain ⟨i, hi, hfind⟩ := List.mem_filterMap.1 hfound
  have hlt : i < lines.length := List.mem_range.1 hi
  rw [List.getElem?_eq_getElem hlt, Option.bind_some] at hfind
  refine ⟨lines.take i, lines[i], lines.drop (i + 1), ?_, hfind⟩
  rw [← List.drop_eq_getElem_cons hlt, List.take_append_drop]

theorem line_of_emission? {filter : Option String} {before : List String} {line : String}
    {e : Emission} (hemission : emission? filter before line = some e) :
    e.line = before.length + 1 := by
  unfold emission? at hemission
  split at hemission
  · cases hemission
  · split at hemission
    · cases hemission
    · rw [← Option.some.inj hemission]

/-! ## Reading one line -/

theorem afterPrefix?_eq (start text : List Char) :
    Text.afterPrefix? start text =
      if start <+: text then some (text.drop start.length) else none := by
  by_cases hstarts : start <+: text
  · obtain ⟨rest, rfl⟩ := hstarts
    rw [if_pos (List.prefix_append start rest), List.drop_left]
    exact Text.afterPrefix?_eq_some_iff.2 rfl
  · rw [if_neg hstarts, Option.eq_none_iff_forall_ne_some]
    intro rest hrest
    exact hstarts ⟨rest, (Text.afterPrefix?_eq_some_iff.1 hrest).symm⟩

theorem isSome_afterPrefix?_iff (start text : List Char) :
    (Text.afterPrefix? start text).isSome = true ↔ start <+: text := by
  rw [afterPrefix?_eq]
  by_cases hstarts : start <+: text
  · simp [hstarts]
  · simp [hstarts]

theorem read?_eq (text : List Char) :
    Heading.read? text =
      if unmarked (Text.trim text) = [] then none
      else some ⟨String.ofList (unmarked (Text.trim text)), (Text.trim text).head? = some ':'⟩ := by
  unfold Heading.read? unmarked
  generalize Text.trim text = text
  simp only
  split
  · next rest => simp
  · next hmark =>
    have hhead : text.head? ≠ some ':' := by
      intro hhead
      obtain ⟨rest, hrest⟩ := List.head?_eq_some_iff.1 hhead
      exact hmark rest hrest
    simp [hhead]

theorem opened?_eq (line : List Char) :
    opened? line = (Text.afterPrefix? "#region ".toList line).bind Heading.read? := by
  have hlength : "#region ".toList.length = 8 := rfl
  rw [afterPrefix?_eq, hlength, opened?]
  by_cases hstarts : "#region ".toList <+: line
  · rw [if_pos hstarts, Option.bind_some, read?_eq]
    by_cases hname : unmarked (Text.trim (line.drop 8)) = []
    · rw [if_neg fun h => h.2 hname, if_pos hname]
    · rw [if_pos ⟨hstarts, hname⟩, if_neg hname]
  · rw [if_neg hstarts, if_neg fun h => hstarts h.1, Option.bind_none]

theorem not_closes_of_opened (hstarts : "#region ".toList <+: line) : ¬Closes line := by
  obtain ⟨rest, rfl⟩ := hstarts
  rintro (hregion | ⟨rest', hend⟩)
  · have hlength := congrArg List.length hregion
    rw [List.length_append] at hlength
    have hlong : "#region ".toList.length = 8 := rfl
    have hshort : "#region".toList.length = 7 := rfl
    omega
  · have hsecond := congrArg (fun text : List Char => text[1]?) hend
    cases hsecond

theorem kind_eq (line : List Char) :
    LineKind.of line =
      match marker? line with
      | some (some heading) => .opens heading
      | some none => .closes
      | none => if line ≠ [] ∧ line.head? ≠ some '#' then .content else .ignored := by
  unfold LineKind.of marker?
  rw [opened?_eq]
  cases hopens : Text.afterPrefix? "#region ".toList line with
  | some rest =>
    have hline := Text.afterPrefix?_eq_some_iff.1 hopens
    have hstarts : "#region ".toList <+: line := ⟨rest, hline.symm⟩
    have hcloses := not_closes_of_opened hstarts
    have hhead : line.head? = some '#' := by
      rw [hline]
      rfl
    simp only [Option.bind_some]
    cases Heading.read? rest with
    | some heading => rfl
    | none =>
      simp only [if_neg hcloses]
      rw [if_neg fun h => h.2 hhead]
  | none =>
    have hcloses_iff : line = "#region".toList ∨
        (Text.afterPrefix? "#endregion".toList line).isSome = true ↔ Closes line :=
      or_congr_right (isSome_afterPrefix?_iff "#endregion".toList line)
    simp only [Option.bind_none]
    by_cases hcloses : Closes line
    · rw [if_pos hcloses, if_pos (hcloses_iff.2 hcloses)]
    · rw [if_neg hcloses, if_neg fun h => hcloses (hcloses_iff.1 h)]
      cases line with
      | nil => rfl
      | cons c rest =>
        show (if c = '#' then LineKind.ignored else .content) = _
        by_cases hmark : c = '#'
        · rw [if_pos hmark, if_neg fun h => h.2 (congrArg some hmark)]
        · have hhead : (c :: rest).head? ≠ some '#' := fun hhead => hmark (Option.some.inj hhead)
          rw [if_neg hmark, if_pos ⟨List.cons_ne_nil c rest, hhead⟩]

theorem head?_of_marker? {marker : Option Heading} (hmarker : marker? line = some marker) :
    line.head? = some '#' := by
  unfold marker? at hmarker
  split at hmarker
  · next heading hopened =>
    rw [opened?_eq] at hopened
    obtain ⟨rest, hrest, -⟩ := Option.bind_eq_some_iff.1 hopened
    rw [Text.afterPrefix?_eq_some_iff.1 hrest]
    rfl
  · split at hmarker
    · next hcloses =>
      rcases hcloses with rfl | ⟨rest, rfl⟩
      · rfl
      · rfl
    · cases hmarker

theorem filter?_eq (filter : Option String) : Heading.filter? filter = wanted? filter := by
  cases filter with
  | none => rfl
  | some text =>
    simp only [Heading.filter?, wanted?, Option.map_some]
    generalize text.toList = name
    cases name with
    | nil => rfl
    | cons c rest =>
      by_cases hmark : c = ':'
      · subst hmark
        rfl
      · have hhead : (c :: rest).head? ≠ some ':' := fun hhead => hmark (Option.some.inj hhead)
        rw [if_neg hhead]
        split
        · next heq => exact absurd (List.cons.inj (Option.some.inj heq)).1 hmark
        · next heq => rw [Option.some.inj heq]
        · next heq => cases heq

theorem selected_eq (filter : Option String) (heading : Option Heading) :
    Heading.selected (Heading.filter? filter) heading = Selected filter heading := by
  rw [filter?_eq]
  unfold Heading.selected Selected
  cases wanted? filter <;> cases heading <;> rfl

theorem wordArgument?_eq (text : List Char) :
    wordArgument? "/defaultwait".toList text = defaultArgument? text := by
  have hlength : "/defaultwait".toList.length = 12 := rfl
  unfold wordArgument?
  rw [afterPrefix?_eq, hlength, defaultArgument?]
  by_cases hstarts : "/defaultwait".toList <+: text
  · rw [if_pos hstarts]
    cases hrest : text.drop 12 with
    | nil => rw [if_pos ⟨hstarts, rfl⟩]; rfl
    | cons c rest =>
      simp only
      by_cases hblank : Text.isBlank c = true
      · rw [if_pos hblank, if_pos ⟨hstarts, hblank⟩]
      · rw [if_neg hblank, if_neg fun h => hblank h.2]
  · rw [if_neg hstarts, if_neg fun h => hstarts h.1]

theorem wait?_eq (text : List Char) :
    WaitToken.wait? text = (waitArgument? text).bind Duration.ofSecondsText? := by
  unfold WaitToken.wait? waitArgument?
  cases (Piece.arguments (WaitToken.tags text)).getLast? with
  | some argument => rfl
  | none =>
    simp only [Option.none_or]
    cases (Piece.arguments (WaitToken.words text)).getLast? <;> rfl

/-! ## Reading line after line -/

variable {lines : List String} {r : Reading} {number : Nat}

theorem readingLines_append (filter : Option String) (r : Reading) (number : Nat)
    (lines later : List String) :
    r.lines filter number (lines ++ later) =
      (r.lines filter number lines).lines filter (number + lines.length) later := by
  induction lines generalizing r number with
  | nil => rfl
  | cons first lines ih =>
    have hnumber : number + (first :: lines).length = number + 1 + lines.length := by
      rw [List.length_cons]
      omega
    rw [List.cons_append, Reading.lines, ih, Reading.lines, hnumber]

theorem readingLines_concat (filter : Option String) (r : Reading) (number : Nat)
    (lines : List String) (line : String) :
    r.lines filter number (lines ++ [line]) =
      (r.lines filter number lines).line filter (number + lines.length) line :=
  readingLines_append filter r number lines [line]

theorem region_concat (lines : List String) (line : String) :
    region (lines ++ [line]) = (marker? (Text.trim line.toList)).getD (region lines) := by
  unfold region
  rw [List.filterMap_append, List.filterMap_cons]
  cases marker? (Text.trim line.toList) with
  | none => simp
  | some marker => simp

theorem defaultWait?_concat (filter : Option String) (lines : List String) (line : String) :
    defaultWait? filter (lines ++ [line]) =
      match (content? filter lines line).bind defaultArgument? with
      | some argument => Duration.ofSecondsText? argument
      | none => defaultWait? filter lines := by
  unfold defaultWait?
  rw [lookBack_concat]
  cases (content? filter lines line).bind defaultArgument? with
  | none => simp
  | some argument => simp

/-- What the compiler knows after some lines is what one finds by looking back. -/
structure Reads (filter : Option String) (lines : List String) (r : Reading) : Prop where
  heading : r.heading = region lines
  defaultWait : r.defaultWait = defaultWait? filter lines
  commands : r.program.commands.map emission = lookBack (emission? filter) lines

theorem emissions_command (r : Reading) (number : Nat) (text : List Char) (wait : Duration) :
    (r.command number text wait).program.commands.map emission =
      r.program.commands.map emission ++
        [{ line := number, text := String.ofList text, directive := .classify text, wait }] := by
  unfold Reading.command
  rw [List.map_append]
  rfl

namespace Reads

/-- A line that has no content, or does not count, leaves no command behind. -/
theorem skip (h : Reads filter lines r) {line : String}
    (hcontent : content? filter lines line = none) {r' : Reading}
    (hheading : r'.heading = (marker? (Text.trim line.toList)).getD r.heading)
    (hdefault : r'.defaultWait = r.defaultWait) (hprogram : r'.program = r.program) :
    Reads filter (lines ++ [line]) r' where
  heading := by rw [hheading, region_concat, h.heading]
  defaultWait := by
    rw [hdefault, defaultWait?_concat, hcontent, h.defaultWait]
    rfl
  commands := by
    have hnone : emission? filter lines line = none := by rw [emission?, hcontent]
    rw [hprogram, lookBack_concat, hnone, h.commands, Option.toList_none, List.append_nil]

/-- A line whose content counts sets the default wait or is a command. -/
theorem content (h : Reads filter lines r) {line : String}
    (hmarker : marker? (Text.trim line.toList) = none)
    (hcontent : content? filter lines line = some (Comment.strip (Text.trim line.toList))) :
    Reads filter (lines ++ [line]) (r.content (lines.length + 1) (Text.trim line.toList)) := by
  have hregion : region (lines ++ [line]) = region lines := by rw [region_concat, hmarker]; rfl
  unfold Reading.content Statement.of
  simp only
  rw [wordArgument?_eq, wait?_eq]
  cases hargument : defaultArgument? (Comment.strip (Text.trim line.toList)) with
  | some argument =>
    have hnone : emission? filter lines line = none := by
      rw [emission?, hcontent]
      simp [hargument]
    refine ⟨?_, ?_, ?_⟩
    · show r.heading = region (lines ++ [line])
      rw [hregion, h.heading]
    · show Duration.ofSecondsText? argument = defaultWait? filter (lines ++ [line])
      rw [defaultWait?_concat, hcontent, Option.bind_some, hargument]
    · show r.program.commands.map emission = _
      rw [lookBack_concat, hnone, h.commands, Option.toList_none, List.append_nil]
  | none =>
    refine ⟨?_, ?_, ?_⟩
    · show r.heading = region (lines ++ [line])
      rw [hregion, h.heading]
    · show r.defaultWait = defaultWait? filter (lines ++ [line])
      rw [defaultWait?_concat, hcontent, Option.bind_some, hargument, h.defaultWait]
    · simp only
      rw [emissions_command, lookBack_concat, h.commands, emission?, hcontent]
      simp only [hargument, Option.isSome_none, Bool.false_eq_true, if_false, Option.toList_some,
        h.defaultWait]
      rfl

theorem step (h : Reads filter lines r) (line : String) :
    Reads filter (lines ++ [line])
      (r.line (Heading.filter? filter) (lines.length + 1) line) := by
  unfold Reading.line
  simp only
  rw [kind_eq, selected_eq, h.heading]
  cases hmarker : marker? (Text.trim line.toList) with
  | some marker =>
    -- A marker decides about the lines after it. It has no content itself, as it begins with a mark.
    have hhead := head?_of_marker? hmarker
    have hcontent : content? filter lines line = none := if_neg fun h => h.2.1 hhead
    cases marker with
    | some heading => exact h.skip hcontent (by rw [hmarker]; rfl) rfl rfl
    | none => exact h.skip hcontent (by rw [hmarker]; rfl) rfl rfl
  | none =>
    simp only
    by_cases hblank : Text.trim line.toList ≠ [] ∧ (Text.trim line.toList).head? ≠ some '#'
    · rw [if_pos hblank]
      by_cases hselected : Selected filter (region lines) = true
      · rw [if_pos hselected]
        exact h.content hmarker (if_pos ⟨hblank.1, hblank.2, hselected⟩)
      · rw [if_neg hselected]
        have hcontent : content? filter lines line = none := if_neg fun h => hselected h.2.2
        exact h.skip hcontent (by rw [hmarker]; rfl) rfl rfl
    · rw [if_neg hblank]
      have hcontent : content? filter lines line = none :=
        if_neg fun h => hblank ⟨h.1, h.2.1⟩
      exact h.skip hcontent (by rw [hmarker]; rfl) rfl rfl

theorem of_lines (filter : Option String) (lines : List String) :
    Reads filter lines (({} : Reading).lines (Heading.filter? filter) 1 lines) := by
  induction lines using List.reverseRecOn with
  | nil => exact ⟨rfl, rfl, rfl⟩
  | append_singleton lines line ih =>
    rw [readingLines_concat, Nat.add_comm]
    exact ih.step line

end Reads

/-- The compiler gives a command for each line that one finds to have one by looking back, in order,
and it is that command. -/
theorem compile_eq_lookBack (lines : List String) (filter : Option String) :
    (Program.compile lines filter).commands.map emission = lookBack (emission? filter) lines :=
  (Reads.of_lines filter lines).commands

example :
    lookBack (emission? (some ":Encore"))
      ["/smile", "#region :Encore", "/defaultwait 2", "/bow # deeply", "#endregion", "/wave"] =
      [{ line := 4, text := "/bow", directive := .dispatch, wait := .ofSeconds 2 }] := by
  decide +kernel

end Choreo.Language
