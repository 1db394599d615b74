import QuorumDispatch.Setup.RcBlock

/-!
What rewriting the managed block does to the file. The first start marker and the first end marker
of the file are looked for separately; where one of them has no partner, or they belong to another
block, the file grows on every run or loses lines of the user's. The search for the exported
directory reads every line of the block, its comments too.
-/

namespace QuorumDispatch.Setup

open Lib

/-! ### Blocks of any directory -/

def blockDir (ls : List Line) : Line := ((ls.getD 6 []).drop 5).rdrop 7

def startsBlock (ls : List Line) : Bool := (managedLines (blockDir ls)).isPrefixOf ls

/-- The lines that no block contains, when the next `skip` lines are of one. -/
def outsideFrom : Nat → List Line → List Line
  | _, [] => []
  | skip + 1, _ :: rest => outsideFrom skip rest
  | 0, l :: rest =>
      if startsBlock (l :: rest) then outsideFrom 9 rest else l :: outsideFrom 0 rest

/-- The lines that no block of `managed_block` contains, in order. -/
def outside (ls : List Line) : List Line := outsideFrom 0 ls

def blockCount (dir : Line) : List Line → Nat
  | [] => 0
  | l :: rest => (if managedLines dir <+: l :: rest then 1 else 0) + blockCount dir rest

/-- The lines in which an older block is not looked for: those behind the one that is replaced,
all of them when none is. -/
def leftAlone (ls : List Line) : List Line :=
  match locateBlock ls with
  | some (_, e) => ls.drop (e + 1)
  | none => ls

variable {dir d : Line} {ls rest pre body post : List Line} {content : List Char}

@[simp] theorem length_managedLines : (managedLines d).length = 10 := rfl

theorem rdrop_drop_append (before d after : Line) :
    ((before ++ d ++ after).drop before.length).rdrop after.length = d := by
  rw [List.append_assoc, List.drop_left, List.rdrop, List.length_append, Nat.add_sub_cancel,
    List.take_left]

theorem startsBlock_iff : startsBlock ls = true ↔ ∃ d, managedLines d <+: ls := by
  rw [startsBlock, List.isPrefixOf_iff_prefix]
  constructor
  · exact fun h => ⟨_, h⟩
  · rintro ⟨d, t, rfl⟩
    have hline : (managedLines d ++ t).getD 6 [] = caseLine d := rfl
    have hdir : blockDir (managedLines d ++ t) = d := by
      rw [blockDir, hline]
      exact rdrop_drop_append "  *\":".toList d ":\"*) ;;".toList
    rw [hdir]
    exact List.prefix_append _ _

theorem isStart_startLine : isStart startLine = true := by decide

theorem isEnd_endLine : isEnd endLine = true := by decide

theorem isStart_of_mem_tail : ∀ l ∈ (managedLines d).tail, isStart l = false := by
  intro l hl
  rcases List.mem_append.mp hl with hl | hl
  · exact (marker_blockBody l hl).1
  · rw [List.mem_singleton.mp hl]
    decide

def Between (t : Line) : Prop := ∀ d, t ∉ (managedLines d).tail

theorem between_startLine : Between startLine := by
  intro d hmem
  have h := isStart_of_mem_tail _ hmem
  rw [isStart_startLine] at h
  cases h

theorem between_nil : Between [] := by
  intro d hmem
  have hne : ∀ l ∈ (managedLines d).tail, l ≠ [] := by
    have hcase : caseLine d ≠ [] := fun h => by cases h
    have hexport : exportLine d ≠ [] := fun h => by cases h
    simp only [managedLines, blockBody, List.tail_cons, List.cons_append, List.nil_append,
      List.forall_mem_cons]
    refine ⟨?_, ?_, ?_, ?_, ?_, hcase, hexport, ?_, ?_, List.forall_mem_nil _⟩
    all_goals decide
  exact hne [] hmem rfl

theorem managedLines_prefix_append {t : Line} (ht : Between t) (hne : ls ≠ []) :
    managedLines d <+: ls ++ t :: rest ↔ managedLines d <+: ls := by
  refine ⟨?_, fun h => h.trans (List.prefix_append _ _)⟩
  intro h
  rcases List.prefix_or_prefix_of_prefix h (List.prefix_append ls (t :: rest)) with hblock | hls
  · exact hblock
  · obtain ⟨more, hmore⟩ := hls
    cases more with
    | nil => rw [← hmore, List.append_nil]
    | cons t' more =>
        obtain ⟨l, ls, rfl⟩ := List.exists_cons_of_ne_nil hne
        rw [← hmore, List.prefix_append_right_inj, List.cons_prefix_cons] at h
        refine absurd ?_ (ht d)
        rw [← hmore, List.cons_append, List.tail_cons, ← h.1]
        exact List.mem_append_right _ List.mem_cons_self

/-! ### Counting and leaving out -/

theorem outsideFrom_drop (skip : Nat) (ls : List Line) : outsideFrom skip ls = outside (ls.drop skip) := by
  induction skip generalizing ls with
  | zero => rfl
  | succ skip ih =>
      cases ls with
      | nil => rfl
      | cons l rest => exact ih rest

theorem outside_cons_of_not {l : Line} (h : startsBlock (l :: rest) = false) :
    outside (l :: rest) = l :: outside rest := by
  rw [outside, outsideFrom, h]
  rfl

theorem outside_block (d : Line) (rest : List Line) :
    outside (managedLines d ++ rest) = outside rest := by
  have hstarts : startsBlock (managedLines d ++ rest) = true :=
    startsBlock_iff.mpr ⟨d, List.prefix_append _ _⟩
  have hcons : managedLines d ++ rest = startLine :: ((managedLines d).tail ++ rest) := rfl
  rw [hcons] at hstarts ⊢
  rw [outside, outsideFrom, if_pos hstarts, outsideFrom_drop]
  rfl

theorem startsBlock_of_isStart {l : Line} (h : isStart l = false) :
    startsBlock (l :: rest) = false := by
  rw [← Bool.not_eq_true, startsBlock_iff]
  rintro ⟨d, hd⟩
  rw [managedLines, List.cons_prefix_cons] at hd
  rw [← hd.1, isStart_startLine] at h
  cases h

theorem outside_append_of_isStart (h : ∀ l ∈ pre, isStart l = false) (rest : List Line) :
    outside (pre ++ rest) = pre ++ outside rest := by
  induction pre with
  | nil => rfl
  | cons l pre ih =>
      rw [List.cons_append, outside_cons_of_not (startsBlock_of_isStart (h l List.mem_cons_self)),
        ih fun m hm => h m (List.mem_cons_of_mem _ hm), List.cons_append]

theorem outside_append {t : Line} (ht : Between t) (ls rest : List Line) :
    outside (ls ++ t :: rest) = outside ls ++ outside (t :: rest) := by
  induction hn : ls.length using Nat.strong_induction_on generalizing ls with
  | _ n ih =>
      cases ls with
      | nil => rfl
      | cons l ls =>
          by_cases hblock : ∃ d, managedLines d <+: l :: ls
          · obtain ⟨d, more, hmore⟩ := hblock
            rw [← hmore, List.append_assoc, outside_block, outside_block]
            refine ih more.length ?_ more rfl
            rw [← hn, ← hmore, List.length_append, length_managedLines]
            omega
          · have hnot : startsBlock (l :: ls) = false := by
              rw [← Bool.not_eq_true, startsBlock_iff]
              exact hblock
            have hnot' : startsBlock (l :: (ls ++ t :: rest)) = false := by
              rw [← Bool.not_eq_true, startsBlock_iff]
              rintro ⟨d, hd⟩
              exact hblock ⟨d, (managedLines_prefix_append ht (List.cons_ne_nil l ls)).mp hd⟩
            rw [List.cons_append, outside_cons_of_not hnot, outside_cons_of_not hnot',
              ih ls.length (by rw [← hn]; exact Nat.lt_succ_self _) ls rfl, List.cons_append]

theorem blockCount_append {t : Line} (ht : Between t) (ls rest : List Line) :
    blockCount dir (ls ++ t :: rest) = blockCount dir ls + blockCount dir (t :: rest) := by
  induction ls with
  | nil => rw [List.nil_append, blockCount, Nat.zero_add]
  | cons l ls ih =>
      have hiff := @managedLines_prefix_append dir (l :: ls) rest t ht (List.cons_ne_nil l ls)
      rw [List.cons_append] at hiff ⊢
      rw [blockCount, blockCount, ih, Nat.add_assoc]
      simp only [hiff]

theorem blockCount_append_of_isStart (h : ∀ l ∈ pre, isStart l = false) (rest : List Line) :
    blockCount dir (pre ++ rest) = blockCount dir rest := by
  induction pre with
  | nil => rfl
  | cons l pre ih =>
      have hnot : ¬ managedLines dir <+: l :: (pre ++ rest) := by
        intro hd
        have hblock := startsBlock_iff.mpr ⟨dir, hd⟩
        rw [startsBlock_of_isStart (h l List.mem_cons_self)] at hblock
        cases hblock
      rw [List.cons_append, blockCount, if_neg hnot, Nat.zero_add,
        ih fun m hm => h m (List.mem_cons_of_mem _ hm)]

theorem blockCount_block (dir : Line) (rest : List Line) :
    blockCount dir (managedLines dir ++ rest) = 1 + blockCount dir rest := by
  have hcons : managedLines dir ++ rest = startLine :: ((managedLines dir).tail ++ rest) := rfl
  have hprefix : managedLines dir <+: startLine :: ((managedLines dir).tail ++ rest) :=
    hcons ▸ List.prefix_append _ _
  rw [hcons, blockCount, if_pos hprefix, blockCount_append_of_isStart isStart_of_mem_tail]

/-! ### The rewritten file -/

/-- What a block is appended to: the file's lines, with an empty one behind them
unless the file has it already. -/
def padded (content : List Char) : List Line :=
  if content = [] then []
  else if content.getLast? = some '\n' then lines content
  else lines content ++ [[]]

theorem locateBlock_of_fenced (h : Fenced isStart isEnd pre body) :
    locateBlock (pre ++ body ++ post) = some (pre.length, pre.length + body.length - 1) :=
  fence_of_fenced h

theorem length_pos_of_fenced (h : Fenced isStart isEnd pre body) : 0 < body.length := by
  obtain ⟨a, mid, b, rfl, -⟩ := h.ends
  exact Nat.succ_pos _

theorem upsertBlock_of_fenced (hdir : '\n' ∉ dir) (hlines : lines content = pre ++ body ++ post)
    (h : Fenced isStart isEnd pre body) :
    upsertBlock content dir = unlines (pre ++ managedLines dir ++ post) := by
  have hpos := length_pos_of_fenced h
  have hend : pre.length + body.length - 1 + 1 = (pre ++ body).length := by
    rw [List.length_append]
    omega
  rw [upsertBlock, hlines, locateBlock_of_fenced h]
  simp only [lines_rdropWhile_managedBlock hdir, hend, List.drop_left]
  rw [List.append_assoc pre body post, List.take_left]

theorem lines_upsertBlock_of_fenced (hdir : '\n' ∉ dir) (hlines : lines content = pre ++ body ++ post)
    (h : Fenced isStart isEnd pre body) :
    lines (upsertBlock content dir) = pre ++ managedLines dir ++ post := by
  rw [upsertBlock_of_fenced hdir hlines h]
  apply lines_unlines
  · intro l hl
    have hmem : l ∈ managedLines dir ∨ l ∈ lines content := by
      rw [hlines]
      rcases List.mem_append.mp hl with hl | hl
      · rcases List.mem_append.mp hl with hl | hl
        · exact .inr (List.mem_append_left _ (List.mem_append_left _ hl))
        · exact .inl hl
      · exact .inr (List.mem_append_right _ hl)
    rcases hmem with hl | hl
    · exact newline_notMem_managedLines hdir l hl
    · exact newline_notMem_of_mem_lines hl
  · simp [managedLines]

theorem upsertBlock_of_none (h : locateBlock (lines content) = none) :
    upsertBlock content dir =
      (if content = [] then [] else if content.getLast? = some '\n' then content ++ ['\n']
        else content ++ '\n' :: ['\n']) ++ managedBlock dir := by
  rw [upsertBlock, h]
  by_cases hnil : content = []
  · subst hnil
    rfl
  · have hne : content.isEmpty = false := List.isEmpty_eq_false_iff.mpr hnil
    by_cases hlast : content.getLast? = some '\n'
    · simp [hnil, hne, hlast]
    · simp [hnil, hne, hlast]

theorem length_lt_upsertBlock (h : locateBlock (lines content) = none) :
    content.length < (upsertBlock content dir).length := by
  have hpos : 0 < (managedBlock dir).length := by
    rw [managedBlock, managedLines, List.flatMap_cons, List.length_append, List.length_append,
      List.length_singleton]
    omega
  rw [upsertBlock_of_none h, List.length_append]
  split_ifs with hnil hlast
  · subst hnil
    simpa using hpos
  · rw [List.length_append]
    omega
  · rw [List.length_append]
    omega

theorem lines_upsertBlock_of_none (hdir : '\n' ∉ dir) (h : locateBlock (lines content) = none) :
    lines (upsertBlock content dir) = padded content ++ managedLines dir ++ [[]] := by
  rw [upsertBlock_of_none h, padded]
  split_ifs with hnil hlast
  · rw [List.nil_append, List.nil_append, lines_managedBlock hdir]
  · rw [List.append_assoc, List.singleton_append, lines_append_newline, lines_managedBlock hdir,
      List.append_assoc]
  · rw [List.append_assoc, List.cons_append, List.singleton_append, lines_append_newline,
      ← List.nil_append ('\n' :: managedBlock dir), lines_append_newline, lines_managedBlock hdir,
      lines_nil, List.append_assoc, List.append_assoc]

theorem forall_mem_padded {p : Line → Bool} (hp : p [] = false) (h : ∀ l ∈ lines content, p l = false) :
    ∀ l ∈ padded content, p l = false := by
  unfold padded
  split_ifs
  · exact List.forall_mem_nil _
  · exact h
  · intro l hl
    rcases List.mem_append.mp hl with hl | hl
    · exact h l hl
    · rw [List.mem_singleton.mp hl, hp]

/-- The lines stand in front of the block, unless there is only an empty one. -/
theorem padded_cases (content : List Char) :
    (padded content = [] ∧ lines content = [[]]) ∨ ∃ pad, padded content = lines content ++ pad ∧
      (pad = [] ∨ pad = [[]]) := by
  unfold padded
  split_ifs with hnil hlast
  · exact .inl ⟨rfl, by rw [hnil, lines_nil]⟩
  · exact .inr ⟨[], (List.append_nil _).symm, .inl rfl⟩
  · exact .inr ⟨[[]], rfl, .inr rfl⟩

/-! ### Repeating, exporting, counting and keeping -/

theorem isMarker_nil : isStart [] = false ∧ isEnd [] = false := by decide

theorem upsertBlock_upsertBlock_of_fenced (hdir : '\n' ∉ dir)
    (hlines : lines content = pre ++ body ++ post) (h : Fenced isStart isEnd pre body) :
    upsertBlock (upsertBlock content dir) dir = upsertBlock content dir := by
  have hresult := lines_upsertBlock_of_fenced hdir hlines h
  have hfenced : Fenced isStart isEnd pre (managedLines dir) :=
    fenced_managedLines h.opens_pre h.closes_pre
  rw [upsertBlock_of_fenced hdir hresult hfenced, ← hresult, unlines_lines]

theorem upsertBlock_upsertBlock_of_clean (hdir : '\n' ∉ dir)
    (hstart : ∀ l ∈ lines content, isStart l = false) (hend : ∀ l ∈ lines content, isEnd l = false) :
    upsertBlock (upsertBlock content dir) dir = upsertBlock content dir := by
  have hresult := lines_upsertBlock_of_none hdir (fence_of_forall_closes hend)
  have hfenced : Fenced isStart isEnd (padded content) (managedLines dir) :=
    fenced_managedLines (forall_mem_padded isMarker_nil.1 hstart)
      (forall_mem_padded isMarker_nil.2 hend)
  rw [upsertBlock_of_fenced hdir hresult hfenced, ← hresult, unlines_lines]

theorem fenced_of_unclosed {a : Line} (ha : isStart a = true) (hpre : ∀ l ∈ pre, isStart l = false)
    (hlines : lines content = pre ++ a :: rest) (hend : ∀ l ∈ lines content, isEnd l = false) :
    ∃ body, padded content ++ managedLines dir = pre ++ body ∧ Fenced isStart isEnd pre body ∧
      managedLines dir <:+ body ∧ 11 ≤ body.length := by
  rcases padded_cases content with ⟨-, hone⟩ | ⟨pad, hpad, hpadcases⟩
  · -- the only line is empty, so it is no marker
    rw [hone] at hlines
    have hmem : a ∈ [[]] := hlines ▸ List.mem_append_right _ List.mem_cons_self
    rw [List.mem_singleton.mp hmem, isMarker_nil.1] at ha
    cases ha
  · have hpadend : ∀ l ∈ padded content, isEnd l = false := forall_mem_padded isMarker_nil.2 hend
    have heq : padded content ++ managedLines dir = pre ++ (a :: (rest ++ pad ++ managedLines dir)) := by
      rw [hpad, hlines]
      simp
    have hfront : padded content = pre ++ a :: (rest ++ pad) := by
      rw [hpad, hlines]
      simp
    refine ⟨_, heq, ⟨hpre, ?_, a, rest ++ pad ++ startLine :: blockBody dir, endLine, ?_, ha,
      isEnd_endLine, ?_⟩, ?_, ?_⟩
    · exact fun l hl => hend l (hlines ▸ List.mem_append_left _ hl)
    · simp [managedLines]
    · intro l hl
      have hcases : l ∈ padded content ∨ l ∈ startLine :: blockBody dir := by
        rw [hfront]
        have hl : l ∈ a :: (rest ++ pad) ++ startLine :: blockBody dir := hl
        rcases List.mem_append.mp hl with hl | hl
        · exact .inl (List.mem_append_right _ hl)
        · exact .inr hl
      rcases hcases with hl | hl
      · exact hpadend l hl
      · rcases List.mem_cons.mp hl with rfl | hl
        · decide
        · exact (marker_blockBody l hl).2
    · exact ⟨a :: (rest ++ pad), by simp⟩
    · simp only [List.length_cons, List.length_append, length_managedLines]
      omega

/-- An end marker in front of every start marker keeps every appended block from
being found. -/
theorem locateBlock_of_unopened {b : Line} (hdir : '\n' ∉ dir) (hb : isEnd b = true)
    (hpre : ∀ l ∈ pre ++ [b], isStart l = false) (hlines : lines content = pre ++ b :: rest) :
    locateBlock (lines (upsertBlock content dir)) = none := by
  have hnone : locateBlock (lines content) = none := hlines ▸ fence_of_unopened hb hpre
  rw [lines_upsertBlock_of_none hdir hnone]
  rcases padded_cases content with ⟨-, hone⟩ | ⟨pad, hpad, -⟩
  · rw [hone] at hlines
    have hmem : b ∈ [[]] := hlines ▸ List.mem_append_right _ List.mem_cons_self
    rw [List.mem_singleton.mp hmem, isMarker_nil.2] at hb
    cases hb
  · rw [hpad, hlines]
    simp only [List.append_assoc, List.cons_append]
    exact fence_of_unopened hb hpre

theorem blockExports_of_fenced (hlines : lines content = pre ++ body ++ post)
    (h : Fenced isStart isEnd pre body) :
    blockExports content d = true ↔ ∃ l ∈ body, d <:+: l := by
  have hpos := length_pos_of_fenced h
  have hend : pre.length + body.length - 1 + 1 = (pre ++ body).length := by
    rw [List.length_append]
    omega
  rw [blockExports, hlines, locateBlock_of_fenced h]
  simp only [hend, List.take_left, List.drop_left, List.any_eq_true, decide_eq_true_iff]

theorem eq_managedLines_of_prefix {mid : List Line} {b : Line} (hmid : ∀ l ∈ mid, isEnd l = false)
    (hb : isEnd b = true) (h : managedLines d <+: mid ++ b :: post) : mid ++ [b] = managedLines d := by
  obtain ⟨t, ht⟩ := h
  have hsplit : (startLine :: blockBody d) ++ endLine :: t = mid ++ b :: post := by
    rw [← ht, managedLines]
    simp
  have hbody : ∀ l ∈ startLine :: blockBody d, isEnd l = false := by
    intro l hl
    rcases List.mem_cons.mp hl with rfl | hl
    · decide
    · exact (marker_blockBody l hl).2
  obtain ⟨hstart, rfl, -⟩ := append_cons_inj hsplit hbody hmid isEnd_endLine hb
  rw [← hstart]
  rfl

/-- Up to an end marker the lines outside are found without what follows: none are
left when they are a block. -/
theorem outside_append_end {mid : List Line} {b : Line} (hmid : ∀ l ∈ mid, isEnd l = false)
    (hb : isEnd b = true) (post : List Line) :
    ∃ left, outside (mid ++ b :: post) = left ++ outside post ∧
      (left = [] ↔ ∃ d, mid ++ [b] = managedLines d) := by
  induction mid with
  | nil =>
      have hno : ¬ ∃ d, [] ++ [b] = managedLines d := fun ⟨d, hd⟩ => by cases hd
      have hnot : startsBlock (b :: post) = false := by
        rw [← Bool.not_eq_true, startsBlock_iff]
        rintro ⟨d, hd⟩
        exact hno ⟨d, eq_managedLines_of_prefix hmid hb hd⟩
      exact ⟨[b], outside_cons_of_not hnot, fun h => absurd h (List.cons_ne_nil _ _),
        fun h => absurd h hno⟩
  | cons l mid ih =>
      by_cases hblock : ∃ d, l :: mid ++ [b] = managedLines d
      · obtain ⟨d, hd⟩ := hblock
        refine ⟨[], ?_, fun _ => ⟨d, hd⟩, fun _ => rfl⟩
        have happend : l :: mid ++ b :: post = (l :: mid ++ [b]) ++ post := by simp
        rw [happend, hd, outside_block]
        rfl
      · have hnot : startsBlock (l :: (mid ++ b :: post)) = false := by
          rw [← Bool.not_eq_true, startsBlock_iff]
          rintro ⟨d, hd⟩
          exact hblock ⟨d, eq_managedLines_of_prefix hmid hb hd⟩
        obtain ⟨left, hleft, -⟩ := ih fun m hm => hmid m (List.mem_cons_of_mem _ hm)
        refine ⟨l :: left, ?_, fun h => absurd h (List.cons_ne_nil _ _), fun h => absurd h hblock⟩
        rw [List.cons_append, outside_cons_of_not hnot, hleft, List.cons_append]

/-! ### The edit -/

/-- A fence is found in the file, or there is nothing that looks like a part of one. -/
def Paired (content : List Char) : Prop :=
  (locateBlock (lines content)).isSome = true ∨
    ∀ l ∈ lines content, isStart l = false ∧ isEnd l = false

def Closable (content : List Char) : Prop :=
  (locateBlock (lines content)).isSome = true ∨ ∀ l ∈ lines content, isEnd l = false

def ReplacesBlock (content : List Char) : Prop :=
  ∀ s e, locateBlock (lines content) = some (s, e) →
    ∃ d, ((lines content).take (e + 1)).drop s = managedLines d

theorem isSome_locateBlock (hlines : lines content = pre ++ body ++ post)
    (h : Fenced isStart isEnd pre body) : (locateBlock (lines content)).isSome = true := by
  rw [hlines, locateBlock_of_fenced h]
  rfl

theorem not_paired {l : Line} (hnone : locateBlock (lines content) = none)
    (hl : l ∈ lines content) (hmarker : isStart l = true ∨ isEnd l = true) : ¬ Paired content := by
  rintro (h | h)
  · rw [hnone] at h
    cases h
  · rw [(h l hl).1, (h l hl).2] at hmarker
    rcases hmarker with h | h <;> cases h

theorem not_closable {l : Line} (hnone : locateBlock (lines content) = none)
    (hl : l ∈ lines content) (hend : isEnd l = true) : ¬ Closable content := by
  rintro (h | h)
  · rw [hnone] at h
    cases h
  · rw [h l hl] at hend
    cases hend

/-- The run can be repeated when its file has no marker without a partner. -/
theorem upsertBlock_upsertBlock_iff (hdir : '\n' ∉ dir) :
    upsertBlock (upsertBlock content dir) dir = upsertBlock content dir ↔ Paired content := by
  cases fencing isEnd_of_isStart (lines content) with
  | fenced pre body post hlines h =>
      exact ⟨fun _ => .inl (isSome_locateBlock hlines h),
        fun _ => upsertBlock_upsertBlock_of_fenced hdir hlines h⟩
  | clean hstart hend =>
      exact ⟨fun _ => .inr fun l hl => ⟨hstart l hl, hend l hl⟩,
        fun _ => upsertBlock_upsertBlock_of_clean hdir hstart hend⟩
  | unclosed pre a rest hlines ha hpre hend =>
      have hnone : locateBlock (lines content) = none := fence_of_forall_closes hend
      have hmem : a ∈ lines content := hlines ▸ List.mem_append_right _ List.mem_cons_self
      obtain ⟨body, hbody, hfenced, -, hlen⟩ := @fenced_of_unclosed dir rest pre content a ha hpre hlines hend
      have hresult : lines (upsertBlock content dir) = pre ++ body ++ [[]] := by
        rw [lines_upsertBlock_of_none hdir hnone, hbody]
      constructor
      · -- the second run takes the lines behind the start marker for the block
        intro h
        have hagain := lines_upsertBlock_of_fenced hdir hresult hfenced
        rw [h, hresult] at hagain
        have := congrArg List.length hagain
        simp only [List.length_append, length_managedLines] at this
        omega
      · exact fun h => absurd h (not_paired hnone hmem (.inl ha))
  | unopened pre b rest hlines hb hpre =>
      have hnone : locateBlock (lines content) = none := hlines ▸ fence_of_unopened hb hpre
      have hmem : b ∈ lines content := hlines ▸ List.mem_append_right _ List.mem_cons_self
      constructor
      · -- the second run appends one more block
        intro h
        have hlt := @length_lt_upsertBlock dir _ (locateBlock_of_unopened hdir hb hpre hlines)
        rw [h] at hlt
        exact absurd hlt (lt_irrefl _)
      · exact fun h => absurd h (not_paired hnone hmem (.inr hb))

/-- Where a fence is found afterwards, every line of the block is searched. -/
theorem blockExports_upsertBlock (hdir : '\n' ∉ dir) :
    Closable content ∧ (∀ l ∈ managedLines dir, d <:+: l →
        blockExports (upsertBlock content dir) d = true) ∧
      (Paired content → (blockExports (upsertBlock content dir) d = true ↔
        ∃ l ∈ managedLines dir, d <:+: l)) ∨
    ¬ Closable content ∧ ¬ Paired content ∧ blockExports (upsertBlock content dir) d = false := by
  cases fencing isEnd_of_isStart (lines content) with
  | fenced pre body post hlines h =>
      have hiff := @blockExports_of_fenced d pre (managedLines dir) post _
        (lines_upsertBlock_of_fenced hdir hlines h) (fenced_managedLines h.opens_pre h.closes_pre)
      exact .inl ⟨.inl (isSome_locateBlock hlines h), fun l hl hd => hiff.mpr ⟨l, hl, hd⟩,
        fun _ => hiff⟩
  | clean hstart hend =>
      have hfenced : Fenced isStart isEnd (padded content) (managedLines dir) :=
        fenced_managedLines (forall_mem_padded isMarker_nil.1 hstart)
          (forall_mem_padded isMarker_nil.2 hend)
      have hiff := @blockExports_of_fenced d (padded content) (managedLines dir) [[]] _
        (lines_upsertBlock_of_none hdir (fence_of_forall_closes hend)) hfenced
      exact .inl ⟨.inr hend, fun l hl hd => hiff.mpr ⟨l, hl, hd⟩, fun _ => hiff⟩
  | unclosed pre a rest hlines ha hpre hend =>
      have hnone : locateBlock (lines content) = none := fence_of_forall_closes hend
      have hmem : a ∈ lines content := hlines ▸ List.mem_append_right _ List.mem_cons_self
      obtain ⟨body, hbody, hfenced, hsuffix, -⟩ := @fenced_of_unclosed dir rest pre content a ha hpre hlines hend
      have hresult : lines (upsertBlock content dir) = pre ++ body ++ [[]] := by
        rw [lines_upsertBlock_of_none hdir hnone, hbody]
      refine .inl ⟨.inr hend, fun l hl hd => ?_, ?_⟩
      · exact (blockExports_of_fenced hresult hfenced).mpr ⟨l, hsuffix.subset hl, hd⟩
      · exact fun h => absurd h (not_paired hnone hmem (.inl ha))
  | unopened pre b rest hlines hb hpre =>
      have hnone : locateBlock (lines content) = none := hlines ▸ fence_of_unopened hb hpre
      have hmem : b ∈ lines content := hlines ▸ List.mem_append_right _ List.mem_cons_self
      refine .inr ⟨not_closable hnone hmem hb, not_paired hnone hmem (.inr hb), ?_⟩
      rw [blockExports, locateBlock_of_unopened hdir hb hpre hlines]

theorem leftAlone_of_fenced (hlines : lines content = pre ++ body ++ post)
    (h : Fenced isStart isEnd pre body) : leftAlone (lines content) = post := by
  have hpos := length_pos_of_fenced h
  have hend : pre.length + body.length - 1 + 1 = (pre ++ body).length := by
    rw [List.length_append]
    omega
  rw [leftAlone, hlines, locateBlock_of_fenced h]
  simp only [hend, List.drop_left]

theorem leftAlone_of_none {ls : List Line} (h : locateBlock ls = none) : leftAlone ls = ls := by
  rw [leftAlone, h]

theorem fenced_or_none (content : List Char) :
    (∃ pre body post, lines content = pre ++ body ++ post ∧ Fenced isStart isEnd pre body) ∨
      locateBlock (lines content) = none := by
  cases fencing isEnd_of_isStart (lines content) with
  | fenced pre body post hlines h => exact .inl ⟨pre, body, post, hlines, h⟩
  | clean _ hend => exact .inr (fence_of_forall_closes hend)
  | unclosed _ _ _ _ _ _ hend => exact .inr (fence_of_forall_closes hend)
  | unopened _ _ _ hlines hb hpre => exact .inr (hlines ▸ fence_of_unopened hb hpre)

theorem blockCount_upsertBlock (hdir : '\n' ∉ dir) :
    blockCount dir (lines (upsertBlock content dir)) =
      blockCount dir (leftAlone (lines content)) + 1 := by
  rcases fenced_or_none content with ⟨pre, body, post, hlines, h⟩ | hnone
  · rw [lines_upsertBlock_of_fenced hdir hlines h, leftAlone_of_fenced hlines h, List.append_assoc,
      blockCount_append_of_isStart h.opens_pre, blockCount_block, Nat.add_comm]
  · have hempty : ∀ ls, blockCount dir (ls ++ [[]]) = blockCount dir ls :=
      fun ls => blockCount_append between_nil ls []
    have hpadded : blockCount dir (padded content) = blockCount dir (lines content) := by
      rcases padded_cases content with ⟨hpad, hone⟩ | ⟨pad, hpad, rfl | rfl⟩
      · rw [hpad, hone]
        exact (hempty []).symm
      · rw [hpad, List.append_nil]
      · rw [hpad, hempty]
    have hblock : padded content ++ managedLines dir =
        padded content ++ startLine :: (managedLines dir).tail := rfl
    have hone := blockCount_block dir []
    rw [List.append_nil] at hone
    rw [lines_upsertBlock_of_none hdir hnone, leftAlone_of_none hnone, hempty, hblock,
      blockCount_append between_startLine, hpadded]
    exact congrArg (blockCount dir (lines content) + ·) hone

theorem outside_sublist_iff (hdir : '\n' ∉ dir) :
    (outside (lines content)).Sublist (outside (lines (upsertBlock content dir))) ↔
      ReplacesBlock content := by
  rcases fenced_or_none content with ⟨pre, body, post, hlines, h⟩ | hnone
  · obtain ⟨a, mid, b, hbody, -, hb, hmid⟩ := h.ends
    obtain ⟨left, hleft, hnil⟩ := outside_append_end hmid hb post
    have hbefore : outside (lines content) = pre ++ (left ++ outside post) := by
      rw [hlines, List.append_assoc, outside_append_of_isStart h.opens_pre, hbody, ← hleft]
      simp
    have hafter : outside (lines (upsertBlock content dir)) = pre ++ outside post := by
      rw [lines_upsertBlock_of_fenced hdir hlines h, List.append_assoc,
        outside_append_of_isStart h.opens_pre, outside_block]
    have hreplaces : ReplacesBlock content ↔ left = [] := by
      have hpos := length_pos_of_fenced h
      have hend : pre.length + body.length - 1 + 1 = (pre ++ body).length := by
        rw [List.length_append]
        omega
      rw [hnil, ReplacesBlock, hlines, locateBlock_of_fenced h]
      constructor
      · intro hblock
        obtain ⟨d, hd⟩ := hblock _ _ rfl
        rw [hend, List.take_left, List.drop_left] at hd
        exact ⟨d, by rw [← hd, hbody]; rfl⟩
      · rintro ⟨d, hd⟩ s e heq
        cases heq
        rw [hend, List.take_left, List.drop_left]
        exact ⟨d, by rw [hbody, ← hd]; rfl⟩
    rw [hbefore, hafter, hreplaces, List.append_sublist_append_left]
    constructor
    · -- a line that is left has no place to be kept in
      intro hsub
      have hlen := hsub.length_le
      rw [List.length_append] at hlen
      exact List.length_eq_zero_iff.mp (by omega)
    · rintro rfl
      exact List.Sublist.refl _
  · have hreplaces : ReplacesBlock content := by
      intro s e heq
      rw [hnone] at heq
      cases heq
    refine iff_of_true ?_ hreplaces
    rw [lines_upsertBlock_of_none hdir hnone]
    rcases padded_cases content with ⟨hpad, hone⟩ | ⟨pad, hpad, hpadcases⟩
    · rw [hpad, hone, List.nil_append, outside_block]
    · obtain ⟨t, rest, hrest, ht⟩ : ∃ t rest, pad ++ managedLines dir ++ [[]] = t :: rest ∧
          Between t := by
        rcases hpadcases with rfl | rfl
        · exact ⟨startLine, _, rfl, between_startLine⟩
        · exact ⟨[], _, rfl, between_nil⟩
      rw [hpad, List.append_assoc, List.append_assoc, ← List.append_assoc pad, hrest,
        outside_append ht]
      exact List.sublist_append_left _ _

structure EditedSafely (content dir : List Char) : Prop where
  idempotent : upsertBlock (upsertBlock content dir) dir = upsertBlock content dir
  one : blockCount dir (lines (upsertBlock content dir)) = 1
  exports : ∀ d, '\n' ∉ d → (blockExports (upsertBlock content dir) d = true ↔ d = dir)
  kept : (outside (lines content)).Sublist (outside (lines (upsertBlock content dir)))

theorem exists_comment (dir : List Char) :
    ∃ d, d ≠ dir ∧ '\n' ∉ d ∧ ∃ l ∈ managedLines dir, d <:+: l := by
  have hline : "# `qd` must be on PATH: the ~/.claude.json relay pin stores the BARE".toList ∈
      managedLines dir :=
    List.mem_cons_of_mem _ (List.mem_cons_of_mem _ List.mem_cons_self)
  by_cases hroot : dir = ['/']
  · subst hroot
    exact ⟨"/.claude.json".toList, by decide, by decide, _, hline, by decide⟩
  · exact ⟨['/'], fun h => hroot h.symm, by decide, _, hline, by decide⟩

/-- The managed block. No edit is safe in every respect, for a directory that a comment of the
block names is taken for exported. For the rest: the run can be repeated exactly when the markers
of the file are paired, the directory counts as exported exactly when no end marker lacks its start
marker, the block is the only one exactly when none is left alone, and the lines outside of blocks
are kept exactly when what is replaced is a block. -/
theorem rcBlock (content dir : List Char) (hdir : '\n' ∉ dir) :
    ¬ EditedSafely content dir ∧
      (upsertBlock (upsertBlock content dir) dir = upsertBlock content dir ↔ Paired content) ∧
      (blockExports (upsertBlock content dir) dir = true ↔ Closable content) ∧
      (Paired content → ∀ d, blockExports (upsertBlock content dir) d = true ↔
        ∃ l ∈ managedLines dir, d <:+: l) ∧
      (blockCount dir (lines (upsertBlock content dir)) = 1 ↔
        blockCount dir (leftAlone (lines content)) = 0) ∧
      ((outside (lines content)).Sublist (outside (lines (upsertBlock content dir))) ↔
        ReplacesBlock content) := by
  have hexport : ∃ l ∈ managedLines dir, dir <:+: l := by
    refine ⟨caseLine dir, ?_, "  *\":".toList, ":\"*) ;;".toList, rfl⟩
    refine List.mem_cons_of_mem _ (List.mem_append_left _ ?_)
    simp only [blockBody, List.mem_cons, true_or, or_true]
  refine ⟨?_, upsertBlock_upsertBlock_iff hdir, ?_, ?_, ?_, outside_sublist_iff hdir⟩
  · intro hsafe
    obtain ⟨d, hne, hd, l, hl, hinfix⟩ := exists_comment dir
    rcases @blockExports_upsertBlock dir d content hdir with ⟨-, hsearch, -⟩ | ⟨-, hpaired, -⟩
    · exact hne ((hsafe.exports d hd).mp (hsearch l hl hinfix))
    · exact hpaired ((upsertBlock_upsertBlock_iff hdir).mp hsafe.idempotent)
  · obtain ⟨l, hl, hinfix⟩ := hexport
    rcases @blockExports_upsertBlock dir dir content hdir with ⟨hclose, hsearch, -⟩ |
      ⟨hclose, -, hfalse⟩
    · exact iff_of_true (hsearch l hl hinfix) hclose
    · exact iff_of_false (by rw [hfalse]; exact Bool.false_ne_true) hclose
  · intro hpaired d
    rcases @blockExports_upsertBlock dir d content hdir with ⟨-, -, hiff⟩ | ⟨-, hnot, -⟩
    · exact hiff hpaired
    · exact absurd hpaired hnot
  · rw [blockCount_upsertBlock hdir]
    omega

/-- A file without markers is left as it is by the second run. -/
theorem rcBlock_plain :
    upsertBlock (upsertBlock "export EDITOR=vi\n".toList "/opt/bin".toList) "/opt/bin".toList =
      upsertBlock "export EDITOR=vi\n".toList "/opt/bin".toList :=
  (rcBlock _ _ (by decide)).2.1.mpr (.inr (by decide))

/-- The second run deletes the user's line between a start marker that was never closed and the
block that the first run appended. -/
theorem rcBlock_unclosed :
    ¬ ∀ content dir : List Char, '\n' ∉ dir → EditedSafely content dir := by
  intro h
  have hdir : '\n' ∉ "/opt/bin".toList := by decide
  have hsafe := h "# >>> qd setup >>>\nexport EDITOR=vi\n".toList "/opt/bin".toList hdir
  -- the marker that opens the fence has no partner
  have hnot : ¬ Paired "# >>> qd setup >>>\nexport EDITOR=vi\n".toList :=
    @not_paired _ startLine (by decide) (by decide) (.inl isStart_startLine)
  exact hnot ((upsertBlock_upsertBlock_iff hdir).mp hsafe.idempotent)

end QuorumDispatch.Setup
