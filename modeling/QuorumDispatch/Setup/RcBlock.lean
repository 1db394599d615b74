import Mathlib.Data.List.DropRight
import QuorumDispatch.Lib.Fence
import QuorumDispatch.Lib.Split
import QuorumDispatch.Lib.Text

/-!
The managed block of a shell rc file: the lines between two markers that setup rewrites on every
run. The markers are matched by their beginning and their end only, so that a block with another
word in the middle is still found.
-/

namespace QuorumDispatch.Setup

open Lib

abbrev Line := List Char

def isMarker (start finish : String) (l : Line) : Bool :=
  start.toList.isPrefixOf (trim l) && finish.toList.isSuffixOf (trim l)

def isStart : Line → Bool := isMarker "# >>>" "setup >>>"

def isEnd : Line → Bool := isMarker "# <<<" "setup <<<"

def startLine : Line := "# >>> qd setup >>>".toList

def endLine : Line := "# <<< qd setup <<<".toList

def caseLine (dir : Line) : Line := "  *\":".toList ++ dir ++ ":\"*) ;;".toList

def exportLine (dir : Line) : Line := "  *) export PATH=\"".toList ++ dir ++ ":$PATH\" ;;".toList

def blockBody (dir : Line) : List Line :=
  ["# Managed by `qd setup` — do not edit between these markers.".toList,
   "# `qd` must be on PATH: the ~/.claude.json relay pin stores the BARE".toList,
   "# command `qd`, which Claude Code resolves via PATH when it launches".toList,
   "# the relay MCP server.".toList,
   "case \":$PATH:\" in".toList,
   caseLine dir,
   exportLine dir,
   "esac".toList]

def managedLines (dir : Line) : List Line := startLine :: (blockBody dir ++ [endLine])

def managedBlock (dir : Line) : List Char := (managedLines dir).flatMap (· ++ ['\n'])

/-- `content.split('\n')`. -/
def lines (content : List Char) : List Line := content.splitOn '\n'

/-- `join("\n")`. -/
def unlines (ls : List Line) : List Char := ['\n'].intercalate ls

def locateBlock (ls : List Line) : Option (Nat × Nat) := fence isStart isEnd ls

def blockExports (content dir : List Char) : Bool :=
  match locateBlock (lines content) with
  | some (s, e) => (((lines content).take (e + 1)).drop s).any fun l => decide (dir <:+: l)
  | none => false

def upsertBlock (content dir : List Char) : List Char :=
  match locateBlock (lines content) with
  | some (s, e) =>
      unlines ((lines content).take s ++ lines ((managedBlock dir).rdropWhile (· == '\n')) ++
        (lines content).drop (e + 1))
  | none =>
      let s := if !content.isEmpty && content.getLast? != some '\n' then content ++ ['\n'] else content
      let s := if s.isEmpty then s else s ++ ['\n']
      s ++ managedBlock dir

/-! ### Lines and texts -/

variable {content dir : List Char}

theorem lines_append_newline (s t : List Char) : lines (s ++ '\n' :: t) = lines s ++ lines t :=
  List.splitOn_append_cons_self s t

@[simp] theorem lines_nil : lines [] = [[]] := rfl

theorem lines_flatMap {ls : List Line} (h : ∀ l ∈ ls, '\n' ∉ l) (rest : List Char) :
    lines (ls.flatMap (· ++ ['\n']) ++ rest) = ls ++ lines rest :=
  splitOn_flatMap h rest

theorem unlines_lines (content : List Char) : unlines (lines content) = content :=
  List.intercalate_splitOn '\n'

theorem lines_unlines {ls : List Line} (h : ∀ l ∈ ls, '\n' ∉ l) (hne : ls ≠ []) :
    lines (unlines ls) = ls :=
  List.splitOn_intercalate '\n' h hne

theorem newline_notMem_of_mem_lines {l : Line} (h : l ∈ lines content) : '\n' ∉ l :=
  notMem_of_mem_splitOn h

/-! ### The lines of a block -/

theorem newline_notMem_managedLines (hdir : '\n' ∉ dir) : ∀ l ∈ managedLines dir, '\n' ∉ l := by
  have haround : ∀ {before after : Line}, '\n' ∉ before → '\n' ∉ after →
      '\n' ∉ before ++ dir ++ after := by
    intro before after hbefore hafter
    simp [hbefore, hdir, hafter]
  have hcase : '\n' ∉ caseLine dir := haround (by decide) (by decide)
  have hexport : '\n' ∉ exportLine dir := haround (by decide) (by decide)
  simp only [managedLines, blockBody, List.cons_append, List.nil_append, List.forall_mem_cons]
  exact ⟨by decide, by decide, by decide, by decide,
    by decide, by decide, hcase, hexport, by decide, by decide,
    List.forall_mem_nil _⟩

theorem lines_managedBlock (hdir : '\n' ∉ dir) :
    lines (managedBlock dir) = managedLines dir ++ [[]] := by
  have h := lines_flatMap (newline_notMem_managedLines hdir) []
  rwa [List.append_nil] at h

theorem lines_rdropWhile_managedBlock (hdir : '\n' ∉ dir) :
    lines ((managedBlock dir).rdropWhile (· == '\n')) = managedLines dir := by
  have hsplit : managedLines dir = (startLine :: blockBody dir) ++ [endLine] := rfl
  have hbody : ∀ l ∈ startLine :: blockBody dir, '\n' ∉ l :=
    fun l hl => newline_notMem_managedLines hdir l (hsplit ▸ List.mem_append_left _ hl)
  have hblock : managedBlock dir =
      (startLine :: blockBody dir).flatMap (· ++ ['\n']) ++ endLine ++ ['\n'] := by
    rw [managedBlock, hsplit, List.flatMap_append, List.flatMap_singleton, ← List.append_assoc]
  have hkeep : ((startLine :: blockBody dir).flatMap (· ++ ['\n']) ++ endLine).rdropWhile
      (· == '\n') = (startLine :: blockBody dir).flatMap (· ++ ['\n']) ++ endLine := by
    rw [List.rdropWhile_eq_self_iff]
    intro hne
    rw [List.getLast_append_of_ne_nil _ (by decide : endLine ≠ [])]
    decide
  rw [hblock, List.rdropWhile_concat_pos _ _ _ (by decide), hkeep, lines_flatMap hbody]
  rfl

theorem isMarker_of_star {start finish : String} {l : Line} (rest : List Char)
    (hl : l.dropWhile isWhitespace = '*' :: rest) (hstart : start.toList.head? = some '#') :
    isMarker start finish l = false := by
  rw [isMarker, Bool.and_eq_false_iff]
  left
  rw [← Bool.not_eq_true, List.isPrefixOf_iff_prefix]
  intro hprefix
  have htrim : trim l <+: '*' :: rest := by
    rw [trim, hl, ← List.reverse_suffix, List.reverse_reverse]
    exact List.dropWhile_suffix _
  obtain ⟨c, cs, hcs⟩ : ∃ c cs, start.toList = c :: cs := by
    cases hs : start.toList with
    | nil => rw [hs] at hstart; cases hstart
    | cons c cs => exact ⟨c, cs, rfl⟩
  rw [hcs] at hprefix hstart
  obtain rfl : c = '#' := Option.some.inj hstart
  obtain ⟨t, ht⟩ := hprefix.trans htrim
  cases ht

theorem marker_blockBody : ∀ l ∈ blockBody dir, isStart l = false ∧ isEnd l = false := by
  have hcase : isStart (caseLine dir) = false ∧ isEnd (caseLine dir) = false := by
    have hdrop : (caseLine dir).dropWhile isWhitespace =
        '*' :: ("\":".toList ++ dir ++ ":\"*) ;;".toList) := rfl
    exact ⟨isMarker_of_star _ hdrop rfl, isMarker_of_star _ hdrop rfl⟩
  have hexport : isStart (exportLine dir) = false ∧ isEnd (exportLine dir) = false := by
    have hdrop : (exportLine dir).dropWhile isWhitespace =
        '*' :: (") export PATH=\"".toList ++ dir ++ ":$PATH\" ;;".toList) := rfl
    exact ⟨isMarker_of_star _ hdrop rfl, isMarker_of_star _ hdrop rfl⟩
  simp only [blockBody, List.forall_mem_cons]
  exact ⟨by decide, by decide, by decide, by decide,
    by decide, hcase, hexport, by decide, List.forall_mem_nil _⟩

theorem fenced_managedLines {pre : List Line} (hstart : ∀ l ∈ pre, isStart l = false)
    (hend : ∀ l ∈ pre, isEnd l = false) : Fenced isStart isEnd pre (managedLines dir) := by
  refine ⟨hstart, hend, startLine, blockBody dir, endLine, rfl, by decide,
    by decide, ?_⟩
  intro l hl
  rcases List.mem_cons.mp hl with rfl | hl
  · decide
  · exact (marker_blockBody l hl).2

theorem isEnd_of_isStart (l : Line) (h : isStart l = true) : isEnd l = false := by
  have hstart : "# >>>".toList <+: trim l :=
    List.isPrefixOf_iff_prefix.mp (Bool.and_eq_true_iff.mp h).1
  rw [isEnd, isMarker, Bool.and_eq_false_iff]
  left
  rw [← Bool.not_eq_true, List.isPrefixOf_iff_prefix]
  intro hend
  have heq := List.prefix_of_prefix_length_le hstart hend (by decide)
  exact absurd heq (by decide)

end QuorumDispatch.Setup
