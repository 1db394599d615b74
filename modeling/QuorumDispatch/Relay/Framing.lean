import QuorumDispatch.Relay.Request

/-!
What a request is, as a part of a stream, and that the reader finds it: however the stream is
split into reads, within the ceiling, and without a read for anything that is not owed.
-/

namespace QuorumDispatch.Relay

open Lib
open Kill (splitWhitespace)

/-! ### The end of the headers -/

theorem findSubslice_eq_some_iff {needle hay : Bytes} (hne : needle ≠ []) {pos : Nat} :
    findSubslice needle hay = some pos ↔
      needle <+: hay.drop pos ∧ ∀ q < pos, ¬ needle <+: hay.drop q := by
  induction hay generalizing pos with
  | nil => simp [findSubslice, hne]
  | cons b hay ih =>
      rw [findSubslice]
      split
      next hfound =>
        rw [Option.some.injEq]
        constructor
        · rintro rfl
          exact ⟨hfound.2, fun q hq => absurd hq (Nat.not_lt_zero q)⟩
        · rintro ⟨-, hfirst⟩
          by_contra hpos
          exact hfirst 0 (Nat.pos_of_ne_zero (Ne.symm hpos)) hfound.2
      next hnot =>
        have hhead : ¬ needle <+: b :: hay := fun h => hnot ⟨hne, h⟩
        cases pos with
        | zero =>
            refine iff_of_false ?_ fun h => hhead h.1
            rw [Option.map_eq_some_iff]
            rintro ⟨k, -, hk⟩
            exact absurd hk (Nat.succ_ne_zero k)
        | succ pos =>
            have hmap : (findSubslice needle hay).map (· + 1) = some (pos + 1) ↔
                findSubslice needle hay = some pos := by
              simp [Option.map_eq_some_iff]
            rw [hmap, ih, List.drop_succ_cons]
            refine and_congr_right fun _ => ⟨fun h q hq => ?_, fun h q hq => ?_⟩
            · cases q with
              | zero => exact hhead
              | succ q => exact h q (Nat.lt_of_succ_lt_succ hq)
            · exact h (q + 1) (Nat.succ_lt_succ hq)

theorem findSubslice_eq_none_iff {needle hay : Bytes} (hne : needle ≠ []) :
    findSubslice needle hay = none ↔ ∀ q, ¬ needle <+: hay.drop q := by
  induction hay with
  | nil => simp [findSubslice, hne]
  | cons b hay ih =>
      rw [findSubslice]
      split
      next hfound => exact iff_of_false nofun fun h => h 0 hfound.2
      next hnot =>
        rw [Option.map_eq_none_iff, ih]
        constructor
        · intro h q
          cases q with
          | zero => exact fun hpre => hnot ⟨hne, hpre⟩
          | succ q => exact h q
        · exact fun h q => h (q + 1)

theorem headEnd_ne_nil : headEnd ≠ [] := List.cons_ne_nil _ _

/-- In a part from the front there is what ends within it. -/
theorem headEnd_prefix_take {stream : Bytes} {n q : Nat} :
    headEnd <+: (stream.take n).drop q ↔ headEnd <+: stream.drop q ∧ q + 4 ≤ n := by
  rw [List.drop_take, List.prefix_take_iff]
  refine and_congr_right fun _ => ?_
  rw [show headEnd.length = 4 from rfl]
  omega

theorem le_of_findSubslice {hay : Bytes} {pos : Nat} (h : findSubslice headEnd hay = some pos) :
    pos + 4 ≤ hay.length := by
  have hlen := ((findSubslice_eq_some_iff headEnd_ne_nil).mp h).1.length_le
  rw [List.length_drop, show headEnd.length = 4 from rfl] at hlen
  omega

/-- What is found in what was received stands first in the stream too. -/
theorem findSubslice_append {buf rest : Bytes} {pos : Nat}
    (h : findSubslice headEnd buf = some pos) : findSubslice headEnd (buf ++ rest) = some pos := by
  have hbuf : (buf ++ rest).take buf.length = buf := List.take_left
  rw [findSubslice_eq_some_iff headEnd_ne_nil] at h ⊢
  rw [← hbuf] at h
  simp only [headEnd_prefix_take] at h
  refine ⟨h.1.1, fun q hq hpre => h.2 q hq ⟨hpre, ?_⟩⟩
  omega

/-- What is not found in what was received does not end within it. -/
theorem lt_of_findSubslice_none {buf rest : Bytes} {pos : Nat} (hnone : findSubslice headEnd buf = none)
    (h : findSubslice headEnd (buf ++ rest) = some pos) : buf.length < pos + 4 := by
  have hbuf : (buf ++ rest).take buf.length = buf := List.take_left
  rw [findSubslice_eq_none_iff headEnd_ne_nil, ← hbuf] at hnone
  have hpos := hnone pos
  rw [headEnd_prefix_take] at hpos
  by_contra hle
  exact hpos ⟨((findSubslice_eq_some_iff headEnd_ne_nil).mp h).1, Nat.le_of_not_lt hle⟩

/-! ### Requests -/

def requestOf (stream : Bytes) : Option ParsedRequest :=
  match findSubslice headEnd stream with
  | none => none
  | some pos =>
      if pos + 4 ≤ maxRequestBytes then
        match readHead (stream.take pos) with
        | none => none
        | some head =>
            if head.contentLength ≤ (stream.drop (pos + 4)).length then
              some
                { method := head.method
                  path := head.path
                  body := (stream.drop (pos + 4)).take head.contentLength }
            else none
      else none

/-- The values of the `Content-Length` lines. -/
def contentLengthValues (lines : List (List Char)) : List (List Char) :=
  lines.filterMap contentLengthValue?

def bodyLength (lines : List (List Char)) : Nat :=
  (((contentLengthValues lines).getLast?).bind parseUsize).getD 0

/-- The stream starts with the request: its headers end within the ceiling, there is a method and
a path, every length is a number within the ceiling, and the body is all there. -/
def Accepts (stream : Bytes) (request : ParsedRequest) : Prop :=
  ∃ pos, headEnd <+: stream.drop pos ∧ (∀ q < pos, ¬ headEnd <+: stream.drop q) ∧
    pos + 4 ≤ maxRequestBytes ∧
    ∃ requestLine lines, splitCrlf (fromUtf8Lossy (stream.take pos)) = requestLine :: lines ∧
      (∃ rest, splitWhitespace requestLine = request.method :: request.path :: rest) ∧
      (∀ value ∈ contentLengthValues lines, ∃ n ≤ maxRequestBytes, parseUsize value = some n) ∧
      bodyLength lines ≤ (stream.drop (pos + 4)).length ∧
      request.body = (stream.drop (pos + 4)).take (bodyLength lines)

theorem contentLengthFrom_eq_some_iff {start n : Nat} {lines : List (List Char)} :
    contentLengthFrom start lines = some n ↔
      (∀ value ∈ contentLengthValues lines, ∃ m ≤ maxRequestBytes, parseUsize value = some m) ∧
        n = (((contentLengthValues lines).getLast?).bind parseUsize).getD start := by
  induction lines generalizing start with
  | nil => simp [contentLengthFrom, contentLengthValues, eq_comm]
  | cons line lines ih =>
      rw [contentLengthFrom]
      cases hvalue : contentLengthValue? line with
      | none =>
          have hvalues : contentLengthValues (line :: lines) = contentLengthValues lines :=
            List.filterMap_cons_none hvalue
          rw [hvalues]
          exact ih
      | some value =>
          have hvalues : contentLengthValues (line :: lines) = value :: contentLengthValues lines :=
            List.filterMap_cons_some hvalue
          rw [hvalues, List.forall_mem_cons]
          dsimp only
          cases hparse : parseUsize value with
          | none =>
              refine iff_of_false (by rintro ⟨⟩) ?_
              rintro ⟨⟨⟨m, -, hm⟩, -⟩, -⟩
              cases hm
          | some len =>
              dsimp only
              split
              next hlarge =>
                refine iff_of_false (by rintro ⟨⟩) ?_
                rintro ⟨⟨⟨m, hm, hsame⟩, -⟩, -⟩
                obtain rfl : len = m := Option.some.inj hsame
                omega
              next hsmall =>
                rw [ih]
                have hfirst : ∃ m ≤ maxRequestBytes, some len = some m :=
                  ⟨len, Nat.le_of_not_lt hsmall, rfl⟩
                rw [and_iff_right hfirst]
                refine and_congr_right fun hall => ?_
                cases hvs : contentLengthValues lines with
                | nil => simp [hparse]
                | cons v vs =>
                    rw [List.getLast?_cons_cons]
                    have hlast : (v :: vs).getLast (List.cons_ne_nil v vs) ∈
                        contentLengthValues lines := by
                      rw [hvs]
                      exact List.getLast_mem _
                    obtain ⟨m, -, hm⟩ := hall _ hlast
                    rw [List.getLast?_eq_some_getLast (List.cons_ne_nil v vs), Option.bind_some, hm]
                    rfl

theorem readHead_eq_some_iff {header : Bytes} {head : Head} :
    readHead header = some head ↔
      ∃ requestLine lines, splitCrlf (fromUtf8Lossy header) = requestLine :: lines ∧
        (∃ rest, splitWhitespace requestLine = head.method :: head.path :: rest) ∧
        contentLengthFrom 0 lines = some head.contentLength := by
  rw [readHead]
  constructor
  · intro h
    split at h
    next => cases h
    next requestLine lines hsplit =>
      split at h
      next method path rest hwords =>
        split at h
        next n hlen =>
          cases h
          exact ⟨requestLine, lines, hsplit, ⟨rest, hwords⟩, hlen⟩
        next => cases h
      next => cases h
  · rintro ⟨requestLine, lines, hsplit, ⟨rest, hwords⟩, hlen⟩
    rw [hsplit]
    dsimp only
    rw [hwords]
    dsimp only
    split
    next n hn =>
      obtain rfl : n = head.contentLength := Option.some.inj (hn.symm.trans hlen)
      rfl
    next hn => exact absurd (hlen.symm.trans hn) nofun

theorem requestOf_eq_some_iff {stream : Bytes} {request : ParsedRequest} :
    requestOf stream = some request ↔ Accepts stream request := by
  constructor
  · intro h
    unfold requestOf at h
    split at h
    next => cases h
    next pos hpos =>
      split at h
      next hceil =>
        split at h
        next => cases h
        next head hhead =>
          split at h
          next hlen =>
            cases h
            obtain ⟨hpre, hfirst⟩ := (findSubslice_eq_some_iff headEnd_ne_nil).mp hpos
            obtain ⟨requestLine, lines, hsplit, hwords, hfrom⟩ := readHead_eq_some_iff.mp hhead
            obtain ⟨hall, hlast⟩ := contentLengthFrom_eq_some_iff.mp hfrom
            refine ⟨pos, hpre, hfirst, hceil, requestLine, lines, hsplit, hwords, hall, ?_, ?_⟩
            · rwa [bodyLength, ← hlast]
            · rw [bodyLength, ← hlast]
          next => cases h
      next => cases h
  · rintro ⟨pos, hpre, hfirst, hceil, requestLine, lines, hsplit, hwords, hall, hlen, hbody⟩
    have hfrom : contentLengthFrom 0 lines = some (bodyLength lines) :=
      contentLengthFrom_eq_some_iff.mpr ⟨hall, rfl⟩
    have hhead : readHead (stream.take pos) =
        some ⟨request.method, request.path, bodyLength lines,
          contentLengthFrom_le (Nat.zero_le _) hfrom⟩ :=
      readHead_eq_some_iff.mpr ⟨requestLine, lines, hsplit, hwords, hfrom⟩
    rw [requestOf, (findSubslice_eq_some_iff headEnd_ne_nil).mpr ⟨hpre, hfirst⟩]
    dsimp only
    rw [if_pos hceil, hhead]
    dsimp only
    rw [if_pos hlen, ← hbody]

/-! ### The reader -/

namespace Reader

/-- The reads are answered: the stream comes before the deadline. -/
def Timely (socket : Socket) : Prop := ∀ k, (socket.answers k).isSome

def At (stream : Bytes) (r : Reader) : Prop :=
  match r.phase with
  | .headers buf => buf ++ r.socket.pending = stream ∧ buf.length ≤ maxRequestBytes
  | .body head bytes =>
      ∃ pos, findSubslice headEnd stream = some pos ∧ pos + 4 ≤ maxRequestBytes ∧
        readHead (stream.take pos) = some head ∧
        bytes ++ r.socket.pending = stream.drop (pos + 4) ∧ bytes.length ≤ maxRequestBytes
  | .done request => request = requestOf stream

theorem receive_cases (r : Reader) {want : Nat} (hwant : 0 < want) (htimely : Timely r.socket)
    (next : Bytes → Phase) :
    ∃ got rest, got ++ rest = r.socket.pending ∧ got.length ≤ want ∧
      (r.receive want next).socket =
        { r.socket with pending := rest, reads := r.socket.reads + 1 } ∧
      (got = [] ∧ r.socket.pending = [] ∧ (r.receive want next).phase = .done none ∨
        got ≠ [] ∧ (r.receive want next).phase = next got) := by
  obtain ⟨more, hmore⟩ := Option.isSome_iff_exists.mp (htimely r.socket.reads)
  refine ⟨r.socket.pending.take (min (more + 1) want), r.socket.pending.drop (min (more + 1) want),
    List.take_append_drop _ _, ?_, ?_⟩
  · rw [List.length_take]
    omega
  · rw [receive, timedRead, hmore]
    dsimp only [Option.map_some]
    cases hgot : r.socket.pending.take (min (more + 1) want) with
    | nil =>
        refine ⟨rfl, .inl ⟨rfl, ?_, rfl⟩⟩
        rcases List.take_eq_nil_iff.mp hgot with hzero | hnil
        · omega
        · exact hnil
    | cons b got => exact ⟨rfl, .inr ⟨List.cons_ne_nil b got, rfl⟩⟩

theorem At.step {stream : Bytes} {r r' : Reader} (h : r.At stream) (htimely : Timely r.socket)
    (hstep : r.step = some r') : r'.At stream ∧ Timely r'.socket := by
  obtain ⟨socket, phase⟩ := r
  unfold Reader.step at hstep
  cases phase with
  | headers buf =>
      obtain ⟨hstream, hlen⟩ : buf ++ socket.pending = stream ∧ buf.length ≤ maxRequestBytes := h
      dsimp only at hstep
      split at hstep
      next pos hpos =>
        have hfound : findSubslice headEnd stream = some pos := hstream ▸ findSubslice_append hpos
        have hle := le_of_findSubslice hpos
        have htake : stream.take pos = buf.take pos := by
          rw [← hstream, List.take_append_of_le_length (by omega)]
        split at hstep
        next head hhead =>
          cases hstep
          refine ⟨⟨pos, hfound, by omega, htake ▸ hhead, ?_, ?_⟩, htimely⟩
          · rw [← hstream, List.drop_append_of_le_length hle]
          · rw [List.length_drop]
            omega
        next hhead =>
          cases hstep
          refine ⟨?_, htimely⟩
          change none = requestOf stream
          rw [requestOf, hfound]
          dsimp only
          rw [htake, hhead, ite_self]
      next hnone =>
        split at hstep
        next hfull =>
          cases hstep
          refine ⟨?_, htimely⟩
          change none = requestOf stream
          rw [requestOf]
          split
          next => rfl
          next pos hpos =>
            have hlt := lt_of_findSubslice_none hnone (hstream ▸ hpos)
            rw [if_neg (by omega)]
        next hroom =>
          cases hstep
          obtain ⟨got, rest, hgot, hgotlen, hsocket, hphase⟩ :=
            receive_cases (Reader.mk socket (.headers buf))
              (show 0 < min (maxRequestBytes - buf.length) 1024 by omega) htimely
              fun got => .headers (buf ++ got)
          rw [At, hsocket]
          refine ⟨?_, htimely⟩
          rcases hphase with ⟨-, hend, hphase⟩ | ⟨-, hphase⟩
          · rw [hphase]
            change none = requestOf stream
            have hbuf : stream = buf := by
              rw [← hstream, show socket.pending = [] from hend, List.append_nil]
            rw [requestOf, hbuf, hnone]
          · rw [hphase]
            refine ⟨?_, ?_⟩
            · rw [← hstream, List.append_assoc]
              exact congrArg (buf ++ ·) hgot
            · rw [List.length_append]
              omega
  | body head bytes =>
      obtain ⟨pos, hpos, hceil, hhead, hstream, hlen⟩ := h
      have hbound := head.bounded
      dsimp only at hstep hstream
      have hrequest : requestOf stream =
          if head.contentLength ≤ (stream.drop (pos + 4)).length then
            some
              { method := head.method
                path := head.path
                body := (stream.drop (pos + 4)).take head.contentLength }
          else none := by
        rw [requestOf, hpos]
        dsimp only
        rw [if_pos hceil, hhead]
      split at hstep
      next hshort =>
        cases hstep
        obtain ⟨got, rest, hgot, hgotlen, hsocket, hphase⟩ :=
          receive_cases (Reader.mk socket (.body head bytes))
            (show 0 < min (head.contentLength - bytes.length) 4096 by omega) htimely
            fun got => .body head (bytes ++ got)
        rw [At, hsocket]
        refine ⟨?_, htimely⟩
        rcases hphase with ⟨-, hend, hphase⟩ | ⟨-, hphase⟩
        · rw [hphase]
          change none = requestOf stream
          rw [hrequest, ← hstream, show socket.pending = [] from hend, List.append_nil,
            if_neg (Nat.not_le_of_lt hshort)]
        · rw [hphase]
          refine ⟨pos, hpos, hceil, hhead, ?_, ?_⟩
          · rw [← hstream, List.append_assoc]
            exact congrArg (bytes ++ ·) hgot
          · rw [List.length_append]
            omega
      next henough =>
        cases hstep
        refine ⟨?_, htimely⟩
        have hle := Nat.le_of_not_lt henough
        change some _ = requestOf stream
        rw [hrequest, ← hstream, List.take_append_of_le_length hle, if_pos]
        rw [List.length_append]
        omega
  | done request => cases hstep

theorem At.reaches {stream : Bytes} {r r' : Reader} (h : r.At stream) (htimely : Timely r.socket)
    (hreaches : Reaches r r') : r'.At stream ∧ Timely r'.socket := by
  induction hreaches with
  | refl => exact ⟨h, htimely⟩
  | tail _ hstep ih => exact ih.1.step ih.2 hstep

theorem at_start (socket : Socket) : (start socket).At socket.pending :=
  ⟨rfl, Nat.zero_le _⟩

theorem reaches_finish (r : Reader) : ∃ r', Reaches r r' ∧ r'.phase = .done r.finish := by
  induction hn : r.left using Nat.strong_induction_on generalizing r with
  | _ n ih =>
      cases hstep : r.step with
      | some r' =>
          obtain ⟨r'', hreaches, hdone⟩ := ih r'.left (hn ▸ left_lt hstep) r' rfl
          refine ⟨r'', .head hstep hreaches, ?_⟩
          rw [hdone, finish.eq_def r]
          split
          next r₁ h₁ => rw [Option.some.inj (hstep.symm.trans h₁)]
          next h₁ => exact absurd (hstep.symm.trans h₁) (Option.some_ne_none _)
      | none =>
          refine ⟨r, .refl, ?_⟩
          rw [finish.eq_def]
          split
          next r₁ h₁ => exact absurd (h₁.symm.trans hstep) (Option.some_ne_none _)
          next h₁ =>
            obtain ⟨socket, phase⟩ := r
            cases phase with
            | headers buf =>
                exfalso
                revert hstep
                unfold step
                dsimp only
                split
                · split <;> exact Option.some_ne_none _
                · split <;> exact Option.some_ne_none _
            | body head bytes =>
                exfalso
                revert hstep
                unfold step
                dsimp only
                split <;> exact Option.some_ne_none _
            | done request => rfl

theorem waits_of_reads {r r' : Reader} (hstep : r.step = some r')
    (hreads : r'.socket.reads ≠ r.socket.reads) :
    match r.phase with
    | .headers buf => findSubslice headEnd buf = none ∧ buf.length < maxRequestBytes
    | .body head bytes => bytes.length < head.contentLength
    | .done _ => False := by
  obtain ⟨socket, phase⟩ := r
  unfold step at hstep
  cases phase with
  | headers buf =>
      dsimp only at hstep ⊢
      split at hstep
      next =>
        split at hstep <;> cases hstep <;> exact absurd rfl hreads
      next hnone =>
        split at hstep
        next => cases hstep; exact absurd rfl hreads
        next hroom => exact ⟨hnone, Nat.lt_of_not_le hroom⟩
  | body head bytes =>
      dsimp only at hstep ⊢
      split at hstep
      next hshort => exact hshort
      next => cases hstep; exact absurd rfl hreads
  | done request => cases hstep

theorem open_of_body {stream p : Bytes} {r : Reader} {head : Head} {bytes : Bytes} (h : r.At stream)
    (hphase : r.phase = .body head bytes) (hshort : bytes.length < head.contentLength)
    (hp : p ++ r.socket.pending = stream) :
    requestOf p = none ∧ ∃ more, (requestOf (p ++ more)).isSome := by
  rw [At, hphase] at h
  obtain ⟨pos, hpos, hceil, hhead, hrest, -⟩ := h
  have hlen : p.length = pos + 4 + bytes.length := by
    have hle := le_of_findSubslice hpos
    have htotal := congrArg List.length hrest
    rw [List.length_append, List.length_drop, ← hp, List.length_append] at htotal
    rw [← hp, List.length_append] at hle
    omega
  have htake : ∀ more, (p ++ more).take pos = stream.take pos := by
    intro more
    rw [← hp, List.take_append_of_le_length (by omega), List.take_append_of_le_length (by omega)]
  have hfound : ∀ more, findSubslice headEnd (p ++ more) = some pos := by
    intro more
    have hin : findSubslice headEnd p = some pos := by
      rw [findSubslice_eq_some_iff headEnd_ne_nil] at hpos ⊢
      have hfront : stream.take p.length = p := by rw [← hp, List.take_left]
      rw [← hfront]
      simp only [headEnd_prefix_take]
      exact ⟨⟨hpos.1, by omega⟩, fun q hq hpre => hpos.2 q hq hpre.1⟩
    exact findSubslice_append hin
  have hrequest : ∀ more, requestOf (p ++ more) =
      if head.contentLength ≤ ((p ++ more).drop (pos + 4)).length then
        some
          { method := head.method
            path := head.path
            body := ((p ++ more).drop (pos + 4)).take head.contentLength }
      else none := by
    intro more
    rw [requestOf, hfound more]
    dsimp only
    rw [if_pos hceil, htake, hhead]
  refine ⟨?_, List.replicate head.contentLength 0, ?_⟩
  · have hnow := hrequest []
    rw [List.append_nil] at hnow
    rw [hnow, if_neg]
    rw [List.length_drop]
    omega
  · rw [hrequest, if_pos]
    · rfl
    · rw [List.length_drop, List.length_append, List.length_replicate]
      omega

end Reader

open Reader in
/-- **Framing.** The answer is the request at the start of the stream, in whatever pieces it comes.
Neither buffer grows over the ceiling. A read is for the end of the headers, while there is room for
it, or for bytes of the body that are owed, while the answer is open. -/
theorem readRequest_framing (socket : Socket) (htimely : Timely socket) :
    (∀ request, readRequest socket = some request ↔ Accepts socket.pending request) ∧
      ∀ r, Reaches (start socket) r →
        (match r.phase with
          | .headers buf => buf.length ≤ maxRequestBytes
          | .body _ bytes => bytes.length ≤ maxRequestBytes
          | .done request => ∀ q ∈ request, q.body.length ≤ maxRequestBytes) ∧
        ∀ r', r.step = some r' → r'.socket.reads ≠ r.socket.reads →
          ∀ p, p ++ r.socket.pending = socket.pending →
            (findSubslice headEnd p = none ∧ p.length < maxRequestBytes) ∨
              requestOf p = none ∧ ∃ more, (requestOf (p ++ more)).isSome := by
  have hat : ∀ r, Reaches (start socket) r → r.At socket.pending :=
    fun r hr => ((at_start socket).reaches htimely hr).1
  refine ⟨fun request => ?_, fun r hr => ⟨?_, fun r' hstep hreads p hp => ?_⟩⟩
  · obtain ⟨r, hr, hdone⟩ := reaches_finish (start socket)
    have hanswer := hat r hr
    rw [At, hdone] at hanswer
    rw [readRequest, show (start socket).finish = requestOf socket.pending from hanswer]
    exact requestOf_eq_some_iff
  · have h := hat r hr
    unfold At at h
    split at h
    next => exact h.2
    next =>
      obtain ⟨-, -, -, -, -, hlen⟩ := h
      exact hlen
    next request =>
      intro q hq
      obtain ⟨pos, -, -, -, requestLine, lines, -, -, hall, -, hbody⟩ :=
        requestOf_eq_some_iff.mp (h.symm.trans hq)
      have hle : bodyLength lines ≤ maxRequestBytes :=
        contentLengthFrom_le (Nat.zero_le _) (contentLengthFrom_eq_some_iff.mpr ⟨hall, rfl⟩)
      rw [hbody, List.length_take]
      omega
  · have hwaits := waits_of_reads hstep hreads
    split at hwaits
    next buf hphase =>
      have h := hat r hr
      rw [At, hphase] at h
      obtain rfl : p = buf := List.append_cancel_right (hp.trans h.1.symm)
      exact .inl hwaits
    next head bytes hphase => exact .inr (open_of_body (hat r hr) hphase hwaits hp)
    next => exact hwaits.elim

/-- A request that comes in three pieces, the second of which ends the headers. -/
def postSocket : Socket where
  pending := "POST /message HTTP/1.1\r\nContent-Length: 2\r\n\r\nhi".toUTF8.toList
  answers := fun k => some (if k = 0 then 45 else if k = 1 then 0 else 7)

theorem readRequest_postSocket : readRequest postSocket =
    some ⟨"POST".toList, "/message".toList, "hi".toUTF8.toList⟩ :=
  ((readRequest_framing postSocket fun _ => rfl).1 _).mpr
    (requestOf_eq_some_iff.mp (by with_unfolding_all rfl))

open Reader in
/-- Once a stream has started with an empty line there is no request in it, whatever follows; the
reader reads on for the end of the headers. -/
theorem readRequest_emptyLine :
    ¬ ∀ socket : Socket, Timely socket → ∀ r, Reaches (start socket) r →
      ∀ p, p ++ r.socket.pending = socket.pending →
        (∀ more, requestOf (p ++ more) = requestOf p) →
          ∀ r', r.step = some r' → r'.socket.reads = r.socket.reads := by
  intro h
  have hnone : ∀ more, requestOf ([13, 10] ++ more) = none := by
    intro more
    rw [requestOf]
    split
    next => rfl
    next pos hpos =>
      have hhead : readHead (([13, 10] ++ more).take pos) = none := by
        obtain ⟨hpre, -⟩ := (findSubslice_eq_some_iff headEnd_ne_nil).mp hpos
        -- the end of the headers is at the very start, or behind the empty line
        match pos with
        | 0 => simp [readHead, splitCrlf, splitWhitespace]
        | 1 => simp [headEnd] at hpre
        | pos + 2 =>
            simp [readHead, fromUtf8Lossy_ascii, splitCrlf, splitWhitespace]
      rw [hhead, ite_self]
  let socket : Socket := { pending := [13, 10, 65], answers := fun _ => some 1 }
  let after : Reader :=
    { socket := { socket with pending := [65], reads := 1 }, phase := .headers [13, 10] }
  have hreaches : Reaches (start socket) after := .single rfl
  have hread := h socket (fun _ => rfl) after hreaches [13, 10] rfl
    (fun more => (hnone more).trans (hnone []).symm)
    { socket := { socket with pending := [], reads := 2 }, phase := .headers [13, 10, 65] } rfl
  exact absurd hread (by decide)

end QuorumDispatch.Relay
