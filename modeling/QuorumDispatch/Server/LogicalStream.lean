import Mathlib.Data.List.DropRight
import Mathlib.Data.List.Forall2
import QuorumDispatch.Protocol.Codec
import QuorumDispatch.Screen.LogicalHistory
import QuorumDispatch.Screen.Render

/-!
Logical history as a stream of frames. The server splits a chunk that does not fit in a
frame, fills frames with chunks as long as they fit, and ends with a frame of no chunks;
the client collects the chunks up to that frame and joins them to lines.
-/

namespace QuorumDispatch.Server

open Lib Screen Protocol

/-- The messages of a history stream. The other variants are told apart by their index. -/
inductive HistoryMsg where
  | historyLogical (chunks : List LogicalHistoryChunk)
  | error (message : String)
  | other (variant : Nat)
deriving DecidableEq, Repr

inductive HistoryError where
  | chunkExceeds
  | cellExceeds
  | fragmentExceeds
  | encode (e : ProtocolError)
  | server (message : String)
  | unexpected (variant : Nat)
  | closed
deriving DecidableEq, Repr

/-! ### The server -/

section Server

variable (c : Serializer HistoryMsg)

/-- `encode(..).is_ok()` of a frame of chunks. -/
def fits (chunks : List LogicalHistoryChunk) : Bool :=
  match encode c (.historyLogical chunks) with
  | .ok _ => true
  | .error _ => false

def encodeHistory (chunks : List LogicalHistoryChunk) : Except HistoryError Bytes :=
  match encode c (.historyLogical chunks) with
  | .ok frame => .ok frame
  | .error e => .error (.encode e)

def searchBest (succeeds : Nat → Bool) (low high best : Nat) (hlow : 0 < low) : Nat :=
  if h : low ≤ high then
    let mid := low + (high - low) / 2
    if succeeds mid then searchBest succeeds (mid + 1) high mid (by omega)
    else searchBest succeeds low (mid - 1) best hlow
  else best
termination_by high + 1 - low

def searchCells (cells : List LogicalCell) : Nat :=
  searchBest (fun mid => fits c [{ cells := cells.take mid, endOfLine := false }]) 1 cells.length 0
    Nat.one_pos

/-- The loop over the cells from `start` on. -/
def splitCells (endOfLine : Bool) (cells : List LogicalCell) :
    Except HistoryError (List LogicalHistoryChunk) :=
  if hcells : cells = [] then .ok []
  else
    let best := searchCells c cells
    if hbest : best = 0 then .error .cellExceeds
    else
      have : (cells.drop best).length < cells.length := by
        rw [List.length_drop]
        have := List.length_pos_iff.mpr hcells
        omega
      match splitCells endOfLine (cells.drop best) with
      | .ok fragments =>
          .ok ({ cells := cells.take best, endOfLine := best = cells.length && endOfLine } :: fragments)
      | .error e => .error e
termination_by cells.length

def splitLogicalChunkToFit (chunk : LogicalHistoryChunk) :
    Except HistoryError (List LogicalHistoryChunk) :=
  if fits c [chunk] then .ok [chunk]
  else if chunk.cells = [] then .error .chunkExceeds
  else splitCells c chunk.endOfLine chunk.cells

structure Packing where
  encodedFrames : List Bytes := []
  current : List LogicalHistoryChunk := []

def Packing.push (p : Packing) (fragment : LogicalHistoryChunk) : Except HistoryError Packing :=
  if fits c (p.current ++ [fragment]) then .ok { p with current := p.current ++ [fragment] }
  else if p.current = [] then .error .fragmentExceeds
  else do
    let frame ← encodeHistory c p.current
    .ok { encodedFrames := p.encodedFrames ++ [frame], current := [fragment] }

def Packing.pushChunk (p : Packing) (chunk : LogicalHistoryChunk) : Except HistoryError Packing := do
  let fragments ← splitLogicalChunkToFit c chunk
  fragments.foldlM (Packing.push c) p

def encodeLogicalHistoryFrames (chunks : List LogicalHistoryChunk) :
    Except HistoryError (List Bytes) := do
  let p ← chunks.foldlM (Packing.pushChunk c) {}
  if p.current = [] then .ok p.encodedFrames
  else do
    let frame ← encodeHistory c p.current
    .ok (p.encodedFrames ++ [frame])

/-- `write_history_response` for a client that takes streams: the frames, and one of no
chunks. -/
def writeHistoryResponse (chunks : List LogicalHistoryChunk) : Except HistoryError (List Bytes) := do
  let frames ← encodeLogicalHistoryFrames c chunks
  let completion ← encodeHistory c []
  .ok (frames ++ [completion])

end Server

/-! ### The client -/

/-- `get_history_session`, from its messages: the chunks up to the completion frame. -/
def collectHistory (chunks : List LogicalHistoryChunk) :
    List HistoryMsg → Except HistoryError (List LogicalHistoryChunk)
  | [] => .error .closed
  | .historyLogical frameChunks :: msgs =>
      if frameChunks = [] then .ok chunks else collectHistory (chunks ++ frameChunks) msgs
  | .error message :: _ => .error (.server message)
  | .other variant :: _ => .error (.unexpected variant)

def hasContent (cell : LogicalCell) : Bool :=
  !cell.wideEarlyPadding &&
    ((cell.ch != ' ' && cell.ch != '\x00') || cell.combining != [] || cell.style != {})

def trimCells (cells : List LogicalCell) : List LogicalCell :=
  cells.rdropWhile fun cell => !hasContent cell

def drawLogicalCells (currentStyle : Style) : List LogicalCell → List Sequence
  | [] => if currentStyle ≠ {} then [Sequence.sgrReset] else []
  | cell :: cells =>
      if cell.wideEarlyPadding ∨ cell.displayWidth = 0 then drawLogicalCells currentStyle cells
      else
        (if cell.style ≠ currentStyle then [Sequence.sgr cell.style] else []) ++
          Sequence.char cell.ch :: cell.combining.map Sequence.char ++
          drawLogicalCells cell.style cells

def renderLogicalLine (cells : List LogicalCell) : Bytes :=
  Sequence.encode (drawLogicalCells {} (trimCells cells))

def joinCells (joined : List (Bytes × Bool) × List LogicalCell) (chunk : LogicalHistoryChunk) :
    List (Bytes × Bool) × List LogicalCell :=
  let cells := joined.2 ++ chunk.cells
  if chunk.endOfLine then (joined.1 ++ [(renderLogicalLine cells, true)], [])
  else (joined.1, cells)

def renderLogicalHistory (chunks : List LogicalHistoryChunk) : List (Bytes × Bool) :=
  let (lines, cells) := chunks.foldl joinCells ([], [])
  if cells = [] then lines else lines ++ [(renderLogicalLine cells, false)]

/-! ### Splitting -/

/-- `bincode` with fixed integers: four bytes for the variant, eight for each length, and
one for a flag. -/
def Layout (c : Serializer HistoryMsg) (cellSize : LogicalCell → Nat) : Prop :=
  ∀ chunks, c.serializedSize (.historyLogical chunks) =
    12 + (chunks.map fun chunk => 9 + (chunk.cells.map cellSize).sum).sum

section Splitting

variable {c : Serializer HistoryMsg} {cellSize : LogicalCell → Nat}

theorem encodeHistory_of_fits {chunks : List LogicalHistoryChunk} (h : fits c chunks = true) :
    ∃ frame, encode c (.historyLogical chunks) = .ok frame ∧ encodeHistory c chunks = .ok frame := by
  unfold fits at h
  unfold encodeHistory
  cases heq : encode c (.historyLogical chunks) with
  | ok frame => exact ⟨frame, rfl, rfl⟩
  | error e => rw [heq] at h; cases h

theorem fits_iff {chunks : List LogicalHistoryChunk} :
    fits c chunks = true ↔ c.serializedSize (.historyLogical chunks) ≤ Protocol.maxFrameSize := by
  unfold fits
  split
  next frame heq => exact ⟨fun _ => (encode_eq_ok.mp heq).1, fun _ => rfl⟩
  next e heq =>
    refine ⟨fun h => (nomatch h), fun h => ?_⟩
    rw [encode_of_le h] at heq
    cases heq

theorem fits_endOfLine (hlayout : Layout c cellSize) (cells : List LogicalCell) (e e' : Bool)
    (h : fits c [{ cells, endOfLine := e }] = true) : fits c [{ cells, endOfLine := e' }] = true := by
  rw [fits_iff, hlayout] at h ⊢
  exact h

theorem fits_nil (hlayout : Layout c cellSize) : fits c [] = true := by
  rw [fits_iff, hlayout]
  show 12 ≤ Protocol.maxFrameSize
  decide

theorem searchBest_spec (succeeds : Nat → Bool) (low high best : Nat) (hlow : 0 < low) :
    (searchBest succeeds low high best hlow = best ∨
      succeeds (searchBest succeeds low high best hlow) = true ∧
        searchBest succeeds low high best hlow ≤ high) ∧
      (low = 1 → 0 < high → succeeds 1 = true → 0 < searchBest succeeds low high best hlow) ∧
      (0 < best → 0 < searchBest succeeds low high best hlow) := by
  fun_induction searchBest succeeds low high best hlow with
  | case1 low high best hlow hle mid hmid ih =>
      obtain ⟨hspec, -, hpos⟩ := ih
      have hmid' : 0 < mid := by omega
      refine ⟨.inr ?_, fun _ _ _ => hpos hmid', fun _ => hpos hmid'⟩
      obtain hspec | hspec := hspec
      · rw [hspec]
        exact ⟨hmid, by omega⟩
      · exact hspec
  | case2 low high best hlow hle mid hmid ih =>
      obtain ⟨hspec, hone, hpos⟩ := ih
      refine ⟨?_, fun hlow' _ hsucceeds => ?_, hpos⟩
      · obtain hspec | ⟨hspec, hle'⟩ := hspec
        · exact .inl hspec
        · exact .inr ⟨hspec, by omega⟩
      · have hmid' : mid ≠ 1 := by
          intro hmid'
          rw [hmid'] at hmid
          exact hmid hsucceeds
        exact hone hlow' (by omega) hsucceeds
  | case3 low high best hlow hlt =>
      exact ⟨.inl rfl, fun _ _ _ => by omega, fun h => h⟩

def CellsFit (c : Serializer HistoryMsg) (cells : List LogicalCell) : Prop :=
  ∀ cell ∈ cells, fits c [{ cells := [cell], endOfLine := false }] = true

theorem searchCells_spec {cells : List LogicalCell} (hne : cells ≠ []) (hcells : CellsFit c cells) :
    0 < searchCells c cells ∧ searchCells c cells ≤ cells.length ∧
      fits c [{ cells := cells.take (searchCells c cells), endOfLine := false }] = true := by
  have hlength := List.length_pos_iff.mpr hne
  have hone : fits c [{ cells := cells.take 1, endOfLine := false }] = true := by
    cases cells with
    | nil => exact absurd rfl hne
    | cons cell cells => exact hcells cell List.mem_cons_self
  obtain ⟨hspec, hpos, -⟩ := searchBest_spec
    (fun mid => fits c [{ cells := cells.take mid, endOfLine := false }]) 1 cells.length 0 Nat.one_pos
  have hbest := hpos rfl hlength hone
  obtain hspec | ⟨hfits, hle⟩ := hspec
  · exact absurd hspec hbest.ne'
  · exact ⟨hbest, hle, hfits⟩

inductive Fragments (endOfLine : Bool) : List LogicalCell → List LogicalHistoryChunk → Prop where
  | last (cells : List LogicalCell) : Fragments endOfLine cells [{ cells, endOfLine }]
  | more {cells cells' : List LogicalCell} {fragments : List LogicalHistoryChunk}
      (h : Fragments endOfLine cells' fragments) :
      Fragments endOfLine (cells ++ cells') ({ cells, endOfLine := false } :: fragments)

theorem splitCells_spec (hlayout : Layout c cellSize) {endOfLine : Bool} {cells : List LogicalCell}
    (hne : cells ≠ []) (hcells : CellsFit c cells) :
    ∃ fragments, splitCells c endOfLine cells = .ok fragments ∧
      Fragments endOfLine cells fragments ∧ ∀ fragment ∈ fragments, fits c [fragment] = true := by
  induction hn : cells.length using Nat.strong_induction_on generalizing cells with
  | _ n ih =>
  obtain ⟨hbest, hle, hfits⟩ := searchCells_spec hne hcells
  rw [splitCells, dif_neg hne]
  dsimp only
  rw [dif_neg hbest.ne']
  by_cases hall : searchCells c cells = cells.length
  · have hdrop : cells.drop (searchCells c cells) = [] := by rw [hall, List.drop_length]
    have htake : cells.take (searchCells c cells) = cells := by rw [hall, List.take_length]
    rw [hdrop, splitCells, dif_pos rfl, htake]
    refine ⟨_, rfl, ?_, ?_⟩
    · simpa [hall] using Fragments.last cells
    · rintro fragment (_ | ⟨_, ⟨⟩⟩)
      rw [htake] at hfits
      exact fits_endOfLine hlayout cells false _ hfits
  · have hrest : cells.drop (searchCells c cells) ≠ [] := by
      rw [Ne, List.drop_eq_nil_iff]
      omega
    have hless : (cells.drop (searchCells c cells)).length < n := by
      rw [List.length_drop]
      omega
    obtain ⟨fragments, hsplit, hfragments, hfit⟩ := ih _ hless hrest
      (fun cell hcell => hcells cell (List.mem_of_mem_drop hcell)) rfl
    rw [hsplit]
    refine ⟨_, rfl, ?_, ?_⟩
    · have h : Fragments endOfLine
          (cells.take (searchCells c cells) ++ cells.drop (searchCells c cells))
          ({ cells := cells.take (searchCells c cells), endOfLine := false } :: fragments) :=
        .more hfragments
      rw [List.take_append_drop] at h
      simpa [hall] using h
    · rintro fragment (_ | ⟨_, hfragment⟩)
      · exact fits_endOfLine hlayout _ false _ hfits
      · exact hfit fragment hfragment

theorem splitLogicalChunkToFit_spec (hlayout : Layout c cellSize) {chunk : LogicalHistoryChunk}
    (hcells : CellsFit c chunk.cells) :
    ∃ fragments, splitLogicalChunkToFit c chunk = .ok fragments ∧
      Fragments chunk.endOfLine chunk.cells fragments ∧
        ∀ fragment ∈ fragments, fits c [fragment] = true := by
  unfold splitLogicalChunkToFit
  split_ifs with hfits hnil
  · refine ⟨[chunk], rfl, .last chunk.cells, ?_⟩
    rintro fragment (_ | ⟨_, ⟨⟩⟩)
    exact hfits
  · refine absurd ?_ hfits
    rw [fits_iff, hlayout]
    simp [hnil, Protocol.maxFrameSize]
  · exact splitCells_spec hlayout hnil hcells

theorem Fragments.foldl_joinCells {endOfLine : Bool} {cells : List LogicalCell}
    {fragments : List LogicalHistoryChunk} (h : Fragments endOfLine cells fragments)
    (joined : List (Bytes × Bool) × List LogicalCell) :
    fragments.foldl joinCells joined = joinCells joined { cells, endOfLine } := by
  induction h generalizing joined with
  | last => rfl
  | more h ih =>
      rw [List.foldl_cons, ih]
      simp [joinCells, List.append_assoc]

theorem Fragments.flatMap_cells {endOfLine : Bool} {cells : List LogicalCell}
    {fragments : List LogicalHistoryChunk} (h : Fragments endOfLine cells fragments) :
    fragments.flatMap LogicalHistoryChunk.cells = cells := by
  induction h with
  | last => simp
  | more h ih => rw [List.flatMap_cons, ih]

def Resplit (chunks fragments : List LogicalHistoryChunk) : Prop :=
  ∃ parts, List.Forall₂ (fun chunk part => Fragments chunk.endOfLine chunk.cells part) chunks parts ∧
    parts.flatten = fragments

theorem Resplit.foldl_joinCells {chunks fragments : List LogicalHistoryChunk}
    (h : Resplit chunks fragments) (joined : List (Bytes × Bool) × List LogicalCell) :
    fragments.foldl joinCells joined = chunks.foldl joinCells joined := by
  obtain ⟨parts, hparts, rfl⟩ := h
  induction hparts generalizing joined with
  | nil => rfl
  | cons hpart _ ih => rw [List.flatten_cons, List.foldl_append, hpart.foldl_joinCells, ih]; rfl

theorem Resplit.flatMap_cells {chunks fragments : List LogicalHistoryChunk}
    (h : Resplit chunks fragments) :
    fragments.flatMap LogicalHistoryChunk.cells = chunks.flatMap LogicalHistoryChunk.cells := by
  obtain ⟨parts, hparts, rfl⟩ := h
  induction hparts with
  | nil => rfl
  | cons hpart _ ih =>
      rw [List.flatten_cons, List.flatMap_append, hpart.flatMap_cells, ih, List.flatMap_cons]

theorem Resplit.renderLogicalHistory {chunks fragments : List LogicalHistoryChunk}
    (h : Resplit chunks fragments) : renderLogicalHistory fragments = renderLogicalHistory chunks := by
  unfold Server.renderLogicalHistory
  rw [h.foldl_joinCells]

/-! ### Packing -/

/-- The frames hold groups of chunks, none of them empty, and with what is packed next they
are the chunks that were pushed. -/
def Packed (c : Serializer HistoryMsg) (p : Packing) (chunks : List LogicalHistoryChunk) : Prop :=
  ∃ groups, List.Forall₂ (fun group frame => encode c (.historyLogical group) = .ok frame)
      groups p.encodedFrames ∧
    (∀ group ∈ groups, group ≠ []) ∧ fits c p.current = true ∧ groups.flatten ++ p.current = chunks

theorem Packed.push {p : Packing} {chunks : List LogicalHistoryChunk} (h : Packed c p chunks)
    {fragment : LogicalHistoryChunk} (hfragment : fits c [fragment] = true) :
    ∃ p', p.push c fragment = .ok p' ∧ Packed c p' (chunks ++ [fragment]) := by
  obtain ⟨groups, hgroups, hne, hcurrent, rfl⟩ := h
  unfold Packing.push
  split_ifs with hfits hnil
  · exact ⟨_, rfl, groups, hgroups, hne, hfits, by rw [List.append_assoc]⟩
  · rw [hnil, List.nil_append] at hfits
    exact absurd hfragment hfits
  · obtain ⟨frame, hframe, hencode⟩ := encodeHistory_of_fits hcurrent
    rw [hencode]
    refine ⟨_, rfl, groups ++ [p.current], List.rel_append hgroups (.cons hframe .nil), ?_, hfragment, ?_⟩
    · intro group hgroup
      obtain hgroup | hgroup := List.mem_append.mp hgroup
      · exact hne group hgroup
      · rw [List.mem_singleton.mp hgroup]
        exact hnil
    · simp

theorem Packed.foldlM_push {p : Packing} {chunks fragments : List LogicalHistoryChunk}
    (h : Packed c p chunks) (hfragments : ∀ fragment ∈ fragments, fits c [fragment] = true) :
    ∃ p', fragments.foldlM (Packing.push c) p = .ok p' ∧ Packed c p' (chunks ++ fragments) := by
  induction fragments generalizing p chunks with
  | nil => exact ⟨p, rfl, by rwa [List.append_nil]⟩
  | cons fragment fragments ih =>
      obtain ⟨p₁, hp₁, h₁⟩ := h.push (hfragments fragment List.mem_cons_self)
      obtain ⟨p', hp', h'⟩ := ih h₁ fun f hf => hfragments f (List.mem_cons_of_mem _ hf)
      refine ⟨p', ?_, by rwa [List.append_assoc] at h'⟩
      rw [List.foldlM_cons, hp₁]
      exact hp'

theorem Packed.foldlM_pushChunk (hlayout : Layout c cellSize) {p : Packing}
    {packed chunks : List LogicalHistoryChunk} (h : Packed c p packed)
    (hcells : ∀ chunk ∈ chunks, CellsFit c chunk.cells) :
    ∃ p' fragments, chunks.foldlM (Packing.pushChunk c) p = .ok p' ∧ Resplit chunks fragments ∧
      Packed c p' (packed ++ fragments) := by
  induction chunks generalizing p packed with
  | nil => exact ⟨p, [], rfl, ⟨[], .nil, rfl⟩, by rwa [List.append_nil]⟩
  | cons chunk chunks ih =>
      obtain ⟨part, hsplit, hpart, hfit⟩ :=
        splitLogicalChunkToFit_spec hlayout (hcells chunk List.mem_cons_self)
      obtain ⟨p₁, hp₁, h₁⟩ := h.foldlM_push hfit
      obtain ⟨p', fragments, hp', ⟨parts, hparts, rfl⟩, h'⟩ :=
        ih h₁ fun chunk hchunk => hcells chunk (List.mem_cons_of_mem _ hchunk)
      refine ⟨p', part ++ parts.flatten, ?_, ⟨part :: parts, .cons hpart hparts, rfl⟩, ?_⟩
      · rw [List.foldlM_cons, Packing.pushChunk, hsplit]
        show (part.foldlM (Packing.push c) p >>= _) = _
        rw [hp₁]
        exact hp'
      · rwa [List.append_assoc] at h'

theorem encodeLogicalHistoryFrames_spec (hlayout : Layout c cellSize)
    {chunks : List LogicalHistoryChunk} (hcells : ∀ chunk ∈ chunks, CellsFit c chunk.cells) :
    ∃ frames groups, encodeLogicalHistoryFrames c chunks = .ok frames ∧
      List.Forall₂ (fun group frame => encode c (.historyLogical group) = .ok frame) groups frames ∧
      (∀ group ∈ groups, group ≠ []) ∧ Resplit chunks groups.flatten := by
  have hstart : Packed c {} [] := ⟨[], .nil, by simp, fits_nil hlayout, rfl⟩
  obtain ⟨p, fragments, hp, hresplit, groups, hgroups, hne, hcurrent, hflatten⟩ :=
    hstart.foldlM_pushChunk hlayout hcells
  rw [List.nil_append] at hflatten
  unfold encodeLogicalHistoryFrames
  rw [hp]
  show ∃ frames groups, (if p.current = [] then _ else _) = _ ∧ _
  split_ifs with hnil
  · refine ⟨_, groups, rfl, hgroups, hne, ?_⟩
    rw [hnil, List.append_nil] at hflatten
    rwa [hflatten]
  · obtain ⟨frame, hframe, hencode⟩ := encodeHistory_of_fits hcurrent
    rw [hencode]
    refine ⟨_, groups ++ [p.current], rfl, List.rel_append hgroups (.cons hframe .nil), ?_, ?_⟩
    · intro group hgroup
      obtain hgroup | hgroup := List.mem_append.mp hgroup
      · exact hne group hgroup
      · rw [List.mem_singleton.mp hgroup]
        exact hnil
    · rw [List.flatten_append, List.flatten_singleton, hflatten]
      exact hresplit

/-! ### The stream -/

theorem collectHistory_groups {groups : List (List LogicalHistoryChunk)}
    (hne : ∀ group ∈ groups, group ≠ []) (chunks : List LogicalHistoryChunk) (msgs : List HistoryMsg) :
    collectHistory chunks (groups.map HistoryMsg.historyLogical ++ HistoryMsg.historyLogical [] :: msgs) =
      .ok (chunks ++ groups.flatten) := by
  induction groups generalizing chunks with
  | nil => simp [collectHistory]
  | cons group groups ih =>
      rw [List.map_cons, List.cons_append, collectHistory, if_neg (hne group List.mem_cons_self),
        ih fun group hgroup => hne group (List.mem_cons_of_mem _ hgroup)]
      simp

/-- A history of which each cell fits in a frame is sent: in frames within the limit, of
messages from which the client collects chunks with the same cells and the same lines. -/
theorem streamed_history (c : Serializer HistoryMsg) (cellSize : LogicalCell → Nat)
    (hlayout : Layout c cellSize) {chunks : List LogicalHistoryChunk}
    (hcells : ∀ chunk ∈ chunks, CellsFit c chunk.cells) :
    ∃ frames completion msgs collected,
      encodeLogicalHistoryFrames c chunks = .ok frames ∧
      writeHistoryResponse c chunks = .ok (frames ++ [completion]) ∧
      (∀ frame ∈ frames ++ [completion], frame.length ≤ 4 + Protocol.maxFrameSize) ∧
      List.Forall₂ (fun msg frame => encode c msg = .ok frame) msgs (frames ++ [completion]) ∧
      collectHistory [] msgs = .ok collected ∧
      renderLogicalHistory collected = renderLogicalHistory chunks ∧
      collected.flatMap LogicalHistoryChunk.cells = chunks.flatMap LogicalHistoryChunk.cells := by
  obtain ⟨frames, groups, hframes, hgroups, hne, hresplit⟩ := encodeLogicalHistoryFrames_spec hlayout hcells
  obtain ⟨completion, hcompletion, hencode⟩ := encodeHistory_of_fits (fits_nil hlayout)
  have hmsgs : List.Forall₂ (fun msg frame => encode c msg = .ok frame)
      (groups.map HistoryMsg.historyLogical ++ [HistoryMsg.historyLogical []]) (frames ++ [completion]) := by
    refine List.rel_append ?_ (.cons hcompletion .nil)
    rwa [List.forall₂_map_left_iff]
  refine ⟨frames, completion, _, groups.flatten, hframes, ?_, ?_, hmsgs,
    collectHistory_groups hne [] [], hresplit.renderLogicalHistory, hresplit.flatMap_cells⟩
  · rw [writeHistoryResponse, hframes]
    show (encodeHistory c [] >>= _) = _
    rw [hencode]
    rfl
  · intro frame hframe
    obtain ⟨i, hi, rfl⟩ := List.getElem_of_mem hframe
    have hi' : i < (groups.map HistoryMsg.historyLogical ++ [HistoryMsg.historyLogical []]).length := by
      rw [hmsgs.length_eq]
      exact hi
    obtain ⟨hsize, heq⟩ := encode_eq_ok.mp (hmsgs.get hi' hi)
    rw [List.get_eq_getElem] at heq
    rw [heq, length_frameOf, c.length_bytes]
    omega

end Splitting

/-! ### The bytes of a history -/

def leBytes : Nat → Nat → Bytes
  | 0, _ => []
  | k + 1, n => .ofNat n :: leBytes k (n / 256)

def optionBytes {α : Type} (f : α → Bytes) : Option α → Bytes
  | none => [0]
  | some a => 1 :: f a

def boolBytes (b : Bool) : Bytes := [if b then 1 else 0]

def colorBytes : Color → Bytes
  | .indexed n => leBytes 4 0 ++ [n]
  | .rgb r g b => leBytes 4 1 ++ [r, g, b]

def styleBytes (s : Style) : Bytes :=
  boolBytes s.bold ++ boolBytes s.dim ++ boolBytes s.italic ++ leBytes 4 s.underline.sgrParam ++
    boolBytes s.blink ++ boolBytes s.inverse ++ boolBytes s.strikethrough ++ boolBytes s.hidden ++
    optionBytes colorBytes s.fg ++ optionBytes colorBytes s.bg ++ optionBytes colorBytes s.underlineColor

def stringBytes (text : List Char) : Bytes :=
  leBytes 8 (encodeUtf8 text).length ++ encodeUtf8 text

def cellBytes (cell : LogicalCell) : Bytes :=
  String.utf8EncodeChar cell.ch ++ [.ofNat cell.displayWidth] ++ stringBytes cell.combining ++
    styleBytes cell.style ++ boolBytes cell.wideEarlyPadding

def chunkBytes (chunk : LogicalHistoryChunk) : Bytes :=
  leBytes 8 chunk.cells.length ++ chunk.cells.flatMap cellBytes ++ boolBytes chunk.endOfLine

def historyMsgBytes : HistoryMsg → Bytes
  | .historyLogical chunks => leBytes 4 14 ++ leBytes 8 chunks.length ++ chunks.flatMap chunkBytes
  | .error message => leBytes 4 4 ++ stringBytes message.toList
  | .other variant => leBytes 4 variant

/-- `bincode` on the messages of a history stream. -/
def historySerializer : Serializer HistoryMsg where
  bytes := historyMsgBytes
  serializedSize msg := (historyMsgBytes msg).length
  length_bytes _ := rfl

@[simp] theorem length_leBytes (k n : Nat) : (leBytes k n).length = k := by
  induction k generalizing n with
  | zero => rfl
  | succ k ih => rw [leBytes, List.length_cons, ih]

theorem layout_historySerializer : Layout historySerializer fun cell => (cellBytes cell).length := by
  have hchunk : ∀ chunk : LogicalHistoryChunk,
      (chunkBytes chunk).length = 9 + (chunk.cells.map fun cell => (cellBytes cell).length).sum := by
    intro chunk
    simp only [chunkBytes, boolBytes, List.length_append, length_leBytes, List.length_flatMap,
      List.length_singleton]
    omega
  intro chunks
  show (historyMsgBytes (.historyLogical chunks)).length = _
  simp only [historyMsgBytes, List.length_append, length_leBytes, List.length_flatMap, hchunk]

/-- A line in two chunks, a chunk of no cells, and a line that is not terminated. -/
def threeChunks : List LogicalHistoryChunk :=
  let cell := fun ch => { ch, displayWidth := 1, combining := [], style := {}, wideEarlyPadding := false }
  [{ cells := [cell 'a', cell 'b'], endOfLine := false }, { cells := [], endOfLine := true },
    { cells := [cell 'c'], endOfLine := false }]

theorem streamed_threeChunks : ∃ frames completion msgs collected,
    encodeLogicalHistoryFrames historySerializer threeChunks = .ok frames ∧
    List.Forall₂ (fun msg frame => encode historySerializer msg = .ok frame) msgs (frames ++ [completion]) ∧
    collectHistory [] msgs = .ok collected ∧
    renderLogicalHistory collected = [(ascii "ab", true), (ascii "c", false)] := by
  have hcells : ∀ chunk ∈ threeChunks, CellsFit historySerializer chunk.cells := by
    intro chunk hchunk cell hcell
    rw [fits_iff]
    revert chunk cell
    decide
  obtain ⟨frames, completion, msgs, collected, hframes, -, -, hmsgs, hcollect, hrender, -⟩ :=
    streamed_history historySerializer _ layout_historySerializer hcells
  exact ⟨frames, completion, msgs, collected, hframes, hmsgs, hcollect, hrender.trans (by decide)⟩

end QuorumDispatch.Server
