import Mathlib.Data.List.Chain
import QuorumDispatch.Lib.Slices
import QuorumDispatch.Submit.Discipline

/-!
A message in chunks. The walk goes over the code points, and closes a chunk in front of the code
point that the budget has no room for; only a code point that is longer than the budget itself is
longer than the budget, and then it is a chunk of its own.
-/

namespace QuorumDispatch.Submit

open Lib
open Pty (chunkFrom chunkText)

/-! ### The walk -/

/-- The chunks that are closed, where the open one began, and its bytes so far. -/
structure ChunkWalk where
  chunks : List (List Char) := []
  start : Nat := 0
  curBytes : Nat := 0

def chunkStep (message : List Char) (max : Nat) (walk : ChunkWalk) : Nat × Char → Option ChunkWalk
  | (idx, ch) =>
      let cpBytes := ch.utf8Size
      if walk.curBytes ≠ 0 ∧ max < walk.curBytes + cpBytes then do
        let chunk ← slice? message walk.start idx
        some { chunks := walk.chunks ++ [chunk], start := idx, curBytes := cpBytes }
      else some { walk with curBytes := walk.curBytes + cpBytes }

def chunkSlices (message : List Char) (chunkBytes : Nat) : Option (List (List Char)) := do
  let walk ← (charIndices message).foldlM (chunkStep message (max chunkBytes 1)) {}
  if walk.start < byteLen message then
    let chunk ← sliceFrom? message walk.start
    some (walk.chunks ++ [chunk])
  else some walk.chunks

def typed (es : History) : List Char :=
  es.flatMap fun e =>
    match e.question with
    | .sendText chunk => chunk
    | _ => []

/-! ### What the chunks are -/

variable {max : Nat} {message front cur rest : List Char} {walk : ChunkWalk}

/-- A chunk within the budget, or a code point that is longer than it. -/
def Fits (max : Nat) (chunk : List Char) : Prop :=
  chunk ≠ [] ∧ (byteLen chunk ≤ max ∨ ∃ c, chunk = [c] ∧ max < c.utf8Size)

/-- The chunk has no room for the first code point of the next one. -/
def Full (max : Nat) (chunk next : List Char) : Prop :=
  ∀ c, next.head? = some c → max < byteLen chunk + c.utf8Size

/-- Non-empty chunks within the budget that are the message when put together, each as long as the next
one lets it be. -/
structure Lossless (message : List Char) (chunkBytes : Nat) (chunks : List (List Char)) : Prop where
  whole : chunks.flatten = message
  fits : ∀ chunk ∈ chunks, Fits (Nat.max 1 chunkBytes) chunk
  greedy : chunks.IsChain (Full (Nat.max 1 chunkBytes))

/-- After a part of the message, of which `cur` is in the open chunk. -/
structure ChunkInv (max : Nat) (front cur : List Char) (walk : ChunkWalk) : Prop where
  closed : walk.chunks.flatten = front
  start : walk.start = byteLen front
  curBytes : walk.curBytes = byteLen cur
  fits : ∀ chunk ∈ walk.chunks, Fits max chunk
  greedy : (walk.chunks ++ [cur]).IsChain (Full max)
  opened : cur = [] ∧ walk.chunks = [] ∨ Fits max cur

theorem ChunkInv.start_walk : ChunkInv max [] [] {} where
  closed := rfl
  start := rfl
  curBytes := rfl
  fits _ h := absurd h List.not_mem_nil
  greedy := List.isChain_singleton _
  opened := .inl ⟨rfl, rfl⟩

theorem fits_singleton (c : Char) : Fits max [c] := by
  refine ⟨List.cons_ne_nil c [], ?_⟩
  by_cases hc : max < c.utf8Size
  · exact .inr ⟨c, rfl, hc⟩
  · exact .inl (by simpa using Nat.le_of_not_lt hc)

theorem ChunkInv.close (h : ChunkInv max front cur walk) (hcur : Fits max cur) {c : Char}
    (hfull : max < byteLen cur + c.utf8Size) :
    ChunkInv max (front ++ cur) [c]
      { chunks := walk.chunks ++ [cur], start := byteLen (front ++ cur), curBytes := c.utf8Size } where
  closed := by rw [List.flatten_append, h.closed, List.flatten_singleton]
  start := rfl
  curBytes := by simp
  fits := by
    intro chunk hchunk
    rcases List.mem_append.mp hchunk with hchunk | hchunk
    · exact h.fits chunk hchunk
    · rw [List.mem_singleton.mp hchunk]
      exact hcur
  greedy := by
    refine List.isChain_append.mpr ⟨h.greedy, List.isChain_singleton _, ?_⟩
    intro x hx y hy
    rw [List.getLast?_concat, Option.mem_some_iff] at hx
    rw [List.head?_cons, Option.mem_some_iff] at hy
    subst hx hy
    rintro c' hc'
    cases hc'
    exact hfull
  opened := .inr (fits_singleton c)

theorem ChunkInv.extend (h : ChunkInv max front cur walk) {c : Char}
    (hroom : cur = [] ∨ byteLen cur + c.utf8Size ≤ max) :
    ChunkInv max front (cur ++ [c]) { walk with curBytes := walk.curBytes + c.utf8Size } where
  closed := h.closed
  start := h.start
  curBytes := by
    change walk.curBytes + c.utf8Size = _
    rw [h.curBytes]
    simp
  fits := h.fits
  greedy := by
    obtain ⟨hclosed, -, hlast⟩ := List.isChain_append.mp h.greedy
    refine List.isChain_append.mpr ⟨hclosed, List.isChain_singleton _, ?_⟩
    intro x hx y hy
    rw [List.head?_cons, Option.mem_some_iff] at hy
    subst hy
    cases hcur : cur with
    | nil =>
        -- nothing is closed in front of an empty chunk
        rcases h.opened with ⟨-, hchunks⟩ | ⟨hne, -⟩
        · rw [hchunks] at hx
          cases hx
        · exact absurd hcur hne
    | cons d ds =>
        rw [hcur] at hlast
        exact hlast x hx (d :: ds) rfl
  opened := by
    refine .inr ⟨List.append_ne_nil_of_right_ne_nil cur (List.cons_ne_nil c []), ?_⟩
    rcases hroom with rfl | hroom
    · exact (fits_singleton c).2
    · exact .inl (by simpa using hroom)

theorem ChunkInv.step (h : ChunkInv max front cur walk) {c : Char} (hmessage : message = front ++ cur ++ c :: rest) :
    ∃ walk' front' cur', chunkStep message max walk (byteLen (front ++ cur), c) = some walk' ∧
      ChunkInv max front' cur' walk' ∧ front' ++ cur' = front ++ cur ++ [c] ∧
        walk'.chunks ++ chunkFrom max cur' (byteLen cur') rest =
          walk.chunks ++ chunkFrom max cur (byteLen cur) (c :: rest) := by
  rw [chunkStep, chunkFrom, h.curBytes]
  by_cases hclose : byteLen cur ≠ 0 ∧ max < byteLen cur + c.utf8Size
  · have hcur : Fits max cur := h.opened.resolve_left fun ⟨hnil, _⟩ => hclose.1 (byteLen_eq_zero.mpr hnil)
    have hslice : slice? message walk.start (byteLen (front ++ cur)) = some cur := by
      rw [hmessage, h.start, byteLen_append]
      exact slice?_append front cur (c :: rest)
    have hsize : byteLen [c] = c.utf8Size := by rw [byteLen_cons, byteLen_nil, Nat.add_zero]
    rw [if_pos hclose, if_pos hclose, hslice]
    refine ⟨_, front ++ cur, [c], rfl, h.close hcur hclose.2, rfl, ?_⟩
    rw [hsize, List.append_assoc, List.singleton_append]
  · have hsize : byteLen (cur ++ [c]) = byteLen cur + c.utf8Size := by
      rw [byteLen_append, byteLen_cons, byteLen_nil, Nat.add_zero]
    rw [if_neg hclose, if_neg hclose]
    refine ⟨_, front, cur ++ [c], rfl, h.curBytes ▸ h.extend ?_, (List.append_assoc ..).symm, by rw [hsize]⟩
    rw [not_and_or, not_not, Nat.not_lt, byteLen_eq_zero] at hclose
    exact hclose

theorem ChunkInv.walk_rest (h : ChunkInv max front cur walk) (hmessage : message = front ++ cur ++ rest) :
    ∃ walk' front' cur',
      (charIndicesFrom (byteLen (front ++ cur)) rest).foldlM (chunkStep message max) walk = some walk' ∧
        ChunkInv max front' cur' walk' ∧ front' ++ cur' = message ∧
          walk'.chunks ++ chunkFrom max cur' (byteLen cur') [] =
            walk.chunks ++ chunkFrom max cur (byteLen cur) rest := by
  induction rest generalizing front cur walk with
  | nil => exact ⟨walk, front, cur, rfl, h, by rw [hmessage, List.append_nil], rfl⟩
  | cons c rest ih =>
      obtain ⟨walk', front', cur', hstep, h', heq, hchunks⟩ := h.step hmessage
      have hmessage' : message = front' ++ cur' ++ rest := by
        rw [heq, hmessage, List.append_assoc _ [c], List.singleton_append]
      obtain ⟨walk'', front'', cur'', hrest, h'', hwhole, hchunks'⟩ := ih h' hmessage'
      refine ⟨walk'', front'', cur'', ?_, h'', hwhole, hchunks'.trans hchunks⟩
      have hnext : byteLen (front ++ cur) + c.utf8Size = byteLen (front' ++ cur') := by
        rw [heq, byteLen_append (front ++ cur), byteLen_cons, byteLen_nil, Nat.add_zero]
      rw [charIndicesFrom, List.foldlM_cons, hstep, hnext]
      exact hrest

theorem chunkSlices_eq (message : List Char) (chunkBytes : Nat) :
    chunkSlices message chunkBytes = some (chunkText message chunkBytes) ∧
      Lossless message chunkBytes (chunkText message chunkBytes) := by
  have hstart : ChunkInv (Nat.max chunkBytes 1) [] [] {} := .start_walk
  obtain ⟨walk, front, cur, hwalk, h, hwhole, hchunks⟩ := hstart.walk_rest (rfl : message = [] ++ [] ++ message)
  have hbudget : Nat.max chunkBytes 1 = Nat.max 1 chunkBytes := Nat.max_comm chunkBytes 1
  have hfold : (charIndices message).foldlM (chunkStep message (Nat.max chunkBytes 1)) {} = some walk := hwalk
  have htext : chunkText message chunkBytes = walk.chunks ++ chunkFrom (Nat.max chunkBytes 1) cur (byteLen cur) [] :=
    hchunks.symm
  have hlen : byteLen message = byteLen front + byteLen cur := by rw [← hwhole, byteLen_append]
  rw [chunkSlices, htext, chunkFrom]
  change (List.foldlM (chunkStep message (Nat.max chunkBytes 1)) {} (charIndices message)).bind _ = _ ∧ _
  rw [hfold, Option.bind_some]
  rcases h.opened with ⟨rfl, hclosed⟩ | hcur
  · -- without an open chunk the message is empty
    have hempty : message = [] := by
      rw [← hwhole, ← h.closed, hclosed]
      rfl
    rw [if_neg (by rw [h.start, hlen]; simp), hclosed, hempty]
    exact ⟨rfl, rfl, fun _ hmem => absurd hmem List.not_mem_nil, .nil⟩
  · have hpos : 0 < byteLen cur := Nat.pos_of_ne_zero fun hzero => hcur.1 (byteLen_eq_zero.mp hzero)
    have hslice : sliceFrom? message walk.start = some cur := by
      rw [← hwhole, h.start]
      exact sliceFrom?_append front cur
    rw [if_pos (by rw [h.start, hlen]; omega), hslice,
      if_neg (by rw [List.isEmpty_iff]; exact hcur.1)]
    refine ⟨rfl, ?_, ?_, hbudget ▸ h.greedy⟩
    · rw [List.flatten_append, h.closed, List.flatten_singleton, hwhole]
    · rw [← hbudget]
      intro chunk hchunk
      rcases List.mem_append.mp hchunk with hchunk | hchunk
      · exact h.fits chunk hchunk
      · rw [List.mem_singleton.mp hchunk]
        exact hcur

/-! ### What is typed -/

theorem typed_sendChunks {settleMs : Nat} {chunks : List (List Char)} {es : History}
    (h : (sendChunks settleMs chunks).Returns es ()) : typed es = chunks.flatten := by
  induction chunks generalizing es with
  | nil =>
      obtain ⟨rfl, -⟩ := Dialog.returns_pure.mp h
      rfl
  | cons chunk chunks ih =>
      obtain ⟨_, es, rfl, hsend⟩ := Dialog.returns_query_bind.mp h
      obtain ⟨_, es, rfl, hrest⟩ := Dialog.returns_query_bind.mp hsend
      exact congrArg (chunk ++ ·) (ih hrest)

theorem typed_sendTextChunked {opts : ChunkSendOptions} {es : History}
    (h : (sendTextChunked message opts).Returns es ()) : typed es = message := by
  rw [← (chunkSlices_eq message opts.chunkBytes).2.whole]
  rw [sendTextChunked] at h
  split at h
  next hchunks =>
    obtain ⟨rfl, -⟩ := Dialog.returns_pure.mp h
    rw [hchunks]
    rfl
  next chunk chunks hchunks =>
    obtain ⟨_, es, rfl, hrest⟩ := Dialog.returns_query_bind.mp h
    rw [hchunks]
    exact congrArg (chunk ++ ·) (typed_sendChunks hrest)

/-- **A message is typed as it is.** Its slices are chunks without loss, and what a run types is the
message; nothing is typed of an empty one. -/
theorem message_chunked (message : List Char) (opts : ChunkSendOptions) :
    chunkSlices message opts.chunkBytes = some (chunkText message opts.chunkBytes) ∧
      Lossless message opts.chunkBytes (chunkText message opts.chunkBytes) ∧
        (∀ es : History, (sendTextChunked message opts).Returns es () → typed es = message) ∧
          chunkText [] opts.chunkBytes = [] ∧ sendTextChunked [] opts = pure () :=
  ⟨(chunkSlices_eq message opts.chunkBytes).1, (chunkSlices_eq message opts.chunkBytes).2,
    fun _ h => typed_sendTextChunked h, rfl, rfl⟩

end QuorumDispatch.Submit
