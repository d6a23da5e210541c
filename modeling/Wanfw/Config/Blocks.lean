import Wanfw.Js.Regex

/-!
# Configuration files of blocks

A file of sites: each has addresses on a line that opens a brace, one directive on each line after
it, and a line that closes the brace. Words are separated by blanks. The reader is a conservative
one, of a small part of what formats of this kind allow: it takes only words that stand for
themselves (no quotes, comments, escapes, placeholders, snippets or imports), and no address twice.

What the writer has written of plain sites is read back (`read_write`), and whatever text is read,
the sites are plain (`read_sound`): a word that is not plain does not come back.
-/

namespace Wanfw.Config

open Wanfw.Js

/-- A site: its addresses, and the words of each of its directives. -/
structure Site where
  addresses : List JsString
  directives : List (List JsString)
  deriving DecidableEq

/-! ### Words -/

def isBlank (u : UInt16) : Bool := u == 32 || u == 9

/-- The words of a line. -/
def words (line : JsString) : List JsString := (line.splitOnP isBlank).filter fun w => !w.isEmpty

/-- White space, and what is more than a part of a word in some place: `"#&(),<\`, the backtick and
the braces. -/
def isSpecial (u : UInt16) : Bool :=
  isSpace u || [34, 35, 38, 40, 41, 44, 60, 92, 96, 123, 125, 133].contains u

/-- The word stands for itself. -/
def isPlain (w : JsString) : Bool := !w.isEmpty && w != js "import" && w.all fun u => !isSpecial u

section Words

variable {w line : JsString} {b u : UInt16}

theorem isSpecial_of_isBlank (h : isBlank u = true) : isSpecial u = true := by
  rw [isBlank, Bool.or_eq_true, beq_iff_eq, beq_iff_eq] at h
  rcases h with rfl | rfl <;> decide

theorem isPlain_iff : isPlain w = true ↔ w ≠ [] ∧ w ≠ js "import" ∧ ∀ u ∈ w, isSpecial u = false := by
  simp [isPlain, and_assoc]

theorem not_isBlank_of_isPlain (h : isPlain w = true) : ∀ u ∈ w, isBlank u = false := by
  intro u hu
  have hspecial := (isPlain_iff.mp h).2.2 u hu
  refine Bool.eq_false_iff.mpr fun hblank => ?_
  rw [isSpecial_of_isBlank hblank] at hspecial
  cases hspecial

@[simp] theorem words_nil : words [] = [] := by simp [words]

/-- A blank ends a word. -/
theorem words_append_cons (hb : isBlank b = true) : words (w ++ b :: line) = words w ++ words line := by
  rw [words, List.splitOnP_append_cons _ _ hb, List.filter_append, words, words]

theorem words_of_not_isBlank (hne : w ≠ []) (h : ∀ u ∈ w, isBlank u = false) : words w = [w] := by
  rw [words, List.splitOnP_eq_singleton h]
  simp [hne]

theorem words_of_isPlain (h : isPlain w = true) : words w = [w] :=
  words_of_not_isBlank (isPlain_iff.mp h).1 (not_isBlank_of_isPlain h)

/-- The words of a line of plain words are these. -/
theorem words_join {ws : List JsString} (h : ∀ w ∈ ws, isPlain w = true) :
    words (join ws [32]) = ws := by
  induction ws with
  | nil => simp [join, List.intercalate]
  | cons w ws ih =>
    cases ws with
    | nil =>
      rw [show join [w] [32] = w from List.append_nil w]
      exact words_of_isPlain (h w List.mem_cons_self)
    | cons v vs =>
      have hjoin : join (w :: v :: vs) [32] = w ++ 32 :: join (v :: vs) [32] := by
        simp [join, List.intercalate]
      rw [hjoin, words_append_cons (by decide), words_of_isPlain (h w List.mem_cons_self),
        ih fun x hx => h x (List.mem_cons_of_mem w hx), List.singleton_append]

end Words

/-! ### The reader -/

/-- The word that opens a block. -/
def openBrace : JsString := [123]

/-- The word that closes a block. -/
def closeBrace : JsString := [125]

/-- The sites of the lines that follow, outside of a block or within one. -/
def readLines : Option Site → List (List JsString) → Option (List Site)
  | none, [] => some []
  | some _, [] => none
  | none, line :: lines =>
    if line = [] then readLines none lines
    else if line.getLast? = some openBrace ∧ line.dropLast ≠ [] ∧ line.dropLast.all isPlain then
      readLines (some ⟨line.dropLast, []⟩) lines
    else none
  | some site, line :: lines =>
    if line = [] then readLines (some site) lines
    else if line = [closeBrace] then (readLines none lines).map (site :: ·)
    else if line.all isPlain then readLines (some { site with directives := site.directives ++ [line] }) lines
    else none

/-- The sites of a text, before their addresses are compared. -/
def readSites (text : JsString) : Option (List Site) := readLines none ((split text 10).map words)

/-- The sites of a file. -/
def read (text : JsString) : Option (List Site) :=
  (readSites text).filter fun sites => decide (sites.flatMap (·.addresses)).Nodup

/-- A site of plain words. -/
structure Site.Plain (s : Site) : Prop where
  addresses_ne_nil : s.addresses ≠ []
  addresses : ∀ a ∈ s.addresses, isPlain a = true
  directive_ne_nil : ∀ d ∈ s.directives, d ≠ []
  directives : ∀ d ∈ s.directives, ∀ w ∈ d, isPlain w = true

/-! ### What is read is plain -/

section Sound

variable {site : Site} {sites : List Site} {lines : List (List JsString)} {text : JsString}

theorem Site.Plain.opened {line : List JsString} (hne : line ≠ []) (h : line.all isPlain = true) :
    Site.Plain ⟨line, []⟩ :=
  ⟨hne, List.all_eq_true.mp h, by simp, by simp⟩

theorem Site.Plain.directive (hs : site.Plain) {line : List JsString} (hne : line ≠ [])
    (h : line.all isPlain = true) :
    Site.Plain { site with directives := site.directives ++ [line] } where
  addresses_ne_nil := hs.addresses_ne_nil
  addresses := hs.addresses
  directive_ne_nil d hd := by
    rcases List.mem_append.mp hd with hd | hd
    · exact hs.directive_ne_nil d hd
    · rwa [List.mem_singleton.mp hd]
  directives d hd := by
    rcases List.mem_append.mp hd with hd | hd
    · exact hs.directives d hd
    · rw [List.mem_singleton.mp hd]
      exact List.all_eq_true.mp h

/-- The reader keeps the site that it is in plain. -/
theorem plain_of_readLines : ∀ (lines : List (List JsString)) (cur : Option Site) (sites : List Site),
    (∀ site ∈ cur, site.Plain) → readLines cur lines = some sites → ∀ s ∈ sites, s.Plain := by
  intro lines
  induction lines with
  | nil =>
    intro cur sites _ h
    cases cur with
    | none =>
      cases h
      simp
    | some site => cases h
  | cons line lines ih =>
    intro cur sites hcur h
    cases cur with
    | none =>
      rw [readLines] at h
      split_ifs at h with hempty hopen
      · exact ih none sites (by simp) h
      · refine ih _ sites (fun site hsite => ?_) h
        cases hsite
        exact .opened hopen.2.1 hopen.2.2
    | some site =>
      have hsite := hcur site rfl
      rw [readLines] at h
      split_ifs at h with hempty hclose hplain
      · exact ih _ sites hcur h
      · obtain ⟨rest, hrest, rfl⟩ := Option.map_eq_some_iff.mp h
        exact List.forall_mem_cons.mpr ⟨hsite, ih none rest (by simp) hrest⟩
      · refine ih _ sites (fun s hs => ?_) h
        cases hs
        exact hsite.directive hempty hplain

/-- **The sites of any file that is read** are plain, and have their addresses for themselves. -/
theorem read_sound (h : read text = some sites) :
    (∀ s ∈ sites, s.Plain) ∧ (sites.flatMap (·.addresses)).Nodup := by
  obtain ⟨hsites, hnodup⟩ := Option.filter_eq_some_iff.mp h
  exact ⟨plain_of_readLines _ none sites (by simp) hsites, of_decide_eq_true hnodup⟩

end Sound

/-! ### The writer -/

/-- The lines of a site. -/
def Site.lines (s : Site) : List JsString :=
  (join s.addresses [32] ++ [32, 123]) :: (s.directives.map fun d => 9 :: join d [32]) ++ [closeBrace]

/-- The text of a site. -/
def Site.text (s : Site) : JsString := join s.lines [10]

/-- The file of these sites, with an empty line between two of them. -/
def write (sites : List Site) : JsString := join (sites.map Site.text) [10, 10] ++ [10]

/-- Lines, each with its end. -/
def endLines (lines : List JsString) : JsString := lines.flatMap fun line => line ++ [10]

section Write

variable {site : Site} {sites : List Site} {lines : List JsString}

theorem join_append_newline (hne : lines ≠ []) : join lines [10] ++ [10] = endLines lines := by
  induction lines with
  | nil => exact absurd rfl hne
  | cons line lines ih =>
    cases lines with
    | nil => simp [join, List.intercalate, endLines]
    | cons next lines =>
      have hjoin : join (line :: next :: lines) [10] = line ++ [10] ++ join (next :: lines) [10] := by
        simp [join, List.intercalate]
      rw [hjoin, List.append_assoc, ih (List.cons_ne_nil _ _)]
      rfl

/-- The lines of a text that begins with ended lines. -/
theorem split_endLines (h : ∀ line ∈ lines, (10 : UInt16) ∉ line) (text : JsString) :
    split (endLines lines ++ text) 10 = lines ++ split text 10 := by
  induction lines with
  | nil => rfl
  | cons line lines ih =>
    obtain ⟨hline, hlines⟩ := List.forall_mem_cons.mp h
    have hcons : endLines (line :: lines) ++ text = line ++ 10 :: (endLines lines ++ text) := by
      simp [endLines]
    rw [hcons, split_append_cons hline, ih hlines, List.cons_append]

theorem not_mem_join {ws : List JsString} (h : ∀ w ∈ ws, isPlain w = true) :
    (10 : UInt16) ∉ join ws [32] := by
  rw [mem_join_iff (by decide)]
  rintro ⟨w, hw, hmem⟩
  have hspecial := (isPlain_iff.mp (h w hw)).2.2 10 hmem
  revert hspecial
  decide

/-- No line of a plain site has an end within it. -/
theorem Site.Plain.not_mem_lines (h : site.Plain) : ∀ line ∈ site.lines, (10 : UInt16) ∉ line := by
  intro line hline
  rw [Site.lines, List.mem_append, List.mem_cons, List.mem_map, List.mem_singleton] at hline
  rcases hline with (rfl | ⟨d, hd, rfl⟩) | rfl
  · rw [List.mem_append]
    exact not_or.mpr ⟨not_mem_join h.addresses, by decide⟩
  · rw [List.mem_cons]
    exact not_or.mpr ⟨by decide, not_mem_join (h.directives d hd)⟩
  · decide

/-- The words of the lines of a plain site. -/
theorem Site.Plain.words_lines (h : site.Plain) :
    site.lines.map words = (site.addresses ++ [openBrace]) :: site.directives ++ [[closeBrace]] := by
  have hopen : words (join site.addresses [32] ++ [32, 123]) = site.addresses ++ [openBrace] := by
    have hbrace : words openBrace = [openBrace] :=
      words_of_not_isBlank (by decide) (by simp [openBrace, isBlank])
    rw [words_append_cons (by decide), words_join h.addresses, ← hbrace, openBrace]
  have hdirectives : (site.directives.map fun d => 9 :: join d [32]).map words = site.directives := by
    rw [List.map_map]
    refine (List.map_congr_left fun d hd => ?_).trans (List.map_id site.directives)
    show words ([] ++ 9 :: join d [32]) = d
    rw [words_append_cons (by decide), words_nil, List.nil_append, words_join (h.directives d hd)]
  have hclose : words closeBrace = [closeBrace] :=
    words_of_not_isBlank (by decide) (by simp [closeBrace, isBlank])
  rw [Site.lines, List.map_append, List.map_cons, hopen, hdirectives, List.map_singleton, hclose]

/-! ### What is written is read -/

/-- Within a block, the directives are read up to the line that closes it. -/
theorem readLines_directives {directives : List (List JsString)} (hne : ∀ d ∈ directives, d ≠ [])
    (hplain : ∀ d ∈ directives, ∀ w ∈ d, isPlain w = true) (site : Site) (rest : List (List JsString)) :
    readLines (some site) (directives ++ [closeBrace] :: rest) =
      (readLines none rest).map (⟨site.addresses, site.directives ++ directives⟩ :: ·) := by
  induction directives generalizing site with
  | nil =>
    rw [List.nil_append, readLines, if_neg (List.cons_ne_nil _ _), if_pos rfl, List.append_nil]
  | cons d ds ih =>
    obtain ⟨hd, hds⟩ := List.forall_mem_cons.mp hplain
    obtain ⟨hned, hneds⟩ := List.forall_mem_cons.mp hne
    -- a brace is not plain
    have hclose : d ≠ [closeBrace] := by
      rintro rfl
      exact absurd (hd closeBrace List.mem_cons_self) (by decide)
    rw [List.cons_append, readLines, if_neg hned, if_neg hclose, if_pos (List.all_eq_true.mpr hd), ih hneds hds,
      List.append_assoc, List.singleton_append]

/-- A plain site is read, and what follows it. -/
theorem readLines_site (h : site.Plain) (rest : List (List JsString)) :
    readLines none (site.lines.map words ++ rest) = (readLines none rest).map (site :: ·) := by
  have hopen := List.all_eq_true.mpr h.addresses
  rw [h.words_lines, List.cons_append, List.cons_append, List.append_assoc, readLines, if_neg (by simp),
    List.getLast?_concat, List.dropLast_concat, if_pos ⟨rfl, h.addresses_ne_nil, hopen⟩, List.singleton_append,
    readLines_directives h.directive_ne_nil h.directives, List.nil_append]

/-- The text of a plain site, ended, is read, and what follows it. -/
theorem readSites_site (h : site.Plain) (text : JsString) :
    readSites (site.text ++ 10 :: text) = (readSites text).map (site :: ·) := by
  have hended : site.text ++ 10 :: text = endLines site.lines ++ text := by
    rw [← join_append_newline (by simp [Site.lines]), Site.text, List.append_assoc,
      List.singleton_append]
  rw [readSites, hended, split_endLines h.not_mem_lines, List.map_append, readLines_site h, readSites]

theorem readSites_newline (text : JsString) : readSites (10 :: text) = readSites text := by
  have hsplit : split (10 :: text) 10 = [] :: split text 10 := split_append_cons (List.not_mem_nil) text
  rw [readSites, hsplit, List.map_cons, words_nil, readLines, if_pos rfl, readSites]

theorem readSites_write (h : ∀ s ∈ sites, s.Plain) : readSites (write sites) = some sites := by
  induction sites with
  | nil => decide
  | cons s sites ih =>
    obtain ⟨hs, hsites⟩ := List.forall_mem_cons.mp h
    cases sites with
    | nil =>
      have htext : write [s] = s.text ++ 10 :: [] := by simp [write, join, List.intercalate]
      rw [htext, readSites_site hs]
      rfl
    | cons next sites =>
      have htext : write (s :: next :: sites) = s.text ++ 10 :: 10 :: write (next :: sites) := by
        simp [write, join, List.intercalate]
      rw [htext, readSites_site hs, readSites_newline, ih hsites, Option.map_some]

/-- **What is written of plain sites**, no address among them twice, is read back. -/
theorem read_write (h : ∀ s ∈ sites, s.Plain) (hnodup : (sites.flatMap (·.addresses)).Nodup) :
    read (write sites) = some sites := by
  rw [read, readSites_write h, Option.filter_some, if_pos (decide_eq_true hnodup)]

end Write

end Wanfw.Config
