import QuorumDispatch.Gc.Trash

/-!
What a move to the trash keeps. A call touches only what it has made itself, and unlinks a source
behind a whole copy and a whole sidecar; both stand from then on, whatever else happens.
-/

namespace QuorumDispatch.Gc

open Lib

/-! ### How far a call has come -/

/-- The files of a call: its sidecar `g`, the source `r` that it reads, and its copy `w` with what was
copied so far. -/
inductive Progress where
  | idle
  | made (g : Nat)
  | noted (g : Nat)
  | opened (g r : Nat)
  | copying (g r w : Nat) (got : Bytes)
  | holding (g r w : Nat) (got chunk : Bytes)
  | copied (g r w : Nat)
  | moved (g w : Nat)
  | undo (g w : Nat)
  | undoCopy (w : Nat)
  | lost
  | ended

namespace Progress

def step : Progress → Exchange Ask Answer → Progress
  | idle, ⟨.createDirAll _, _⟩ => idle
  | idle, ⟨.createNew _, some g⟩ => made g
  | made g, ⟨.writeAll .., .done⟩ => .noted g
  | made _, ⟨.writeAll .., .died⟩ => lost
  | .noted g, ⟨.openRead _, some r⟩ => opened g r
  | .noted g, ⟨.openRead _, none⟩ => .noted g
  | opened g r, ⟨.createNew _, some w⟩ => copying g r w []
  | opened g _, ⟨.createNew _, none⟩ => .noted g
  | copying g r w _, ⟨.read .., some []⟩ => copied g r w
  | copying g r w got, ⟨.read .., some chunk⟩ => holding g r w got chunk
  | copying g _ _ _, ⟨.read .., none⟩ => .noted g
  | holding g r w got chunk, ⟨.writeAll .., .done⟩ => copying g r w (got ++ chunk)
  | holding g _ _ _ _, ⟨.writeAll .., .failed⟩ => .noted g
  | holding .., ⟨.writeAll .., .died⟩ => lost
  | copied g _ w, ⟨.removeFile _, .failed⟩ => undo g w
  | copied g _ w, ⟨.removeFile _, _⟩ => moved g w
  | undo _ w, ⟨.removeFile _, _⟩ => undoCopy w
  | _, _ => ended

end Progress

def progress (asked : List (Exchange Ask Answer)) : Progress := asked.foldl Progress.step .idle

@[simp] theorem progress_snoc (asked : List (Exchange Ask Answer)) (e : Exchange Ask Answer) :
    progress (asked ++ [e]) = (progress asked).step e := by
  rw [progress, List.foldl_append]
  rfl

section Calls

variable (toStringPretty : TrashMeta → Option Bytes)

def Progress.Allows (c : Call) : Progress → Ask → Prop
  | .idle, .createDirAll _ => True
  | .idle, .createNew place => place = c.metaPath
  | .made g, .writeAll file bytes => file = g ∧ toStringPretty c.trashMeta = some bytes
  | .noted _, .openRead src => src = c.src
  | .noted _, .removeFile place => place = c.metaPath
  | .opened .., .createNew place => place = c.trashPath
  | .copying _ r _ got, .read file offset => file = r ∧ offset = got.length
  | .holding _ _ w _ chunk, .writeAll file bytes => file = w ∧ bytes = chunk
  | .copied .., .removeFile place => place = .source c.src
  | .undo .., .removeFile place => place = c.metaPath
  | .undoCopy _, .removeFile place => place = c.trashPath
  | _, _ => False

def Permitted (c : Call) (h : List (Exchange Ask Answer)) (q : Ask) : Prop :=
  (progress h).Allows toStringPretty c q

variable {toStringPretty} {c : Call} {h : List (Exchange Ask Answer)}

open Lib.Dialog hiding pure bind ask

def Copied (g r w : Nat) (out : Outcome) (h : List (Exchange Ask Answer)) : Prop :=
  match out with
  | .done => progress h = .copied g r w
  | .failed => progress h = .noted g
  | .died => True

theorem ensures_copyFrom {g r w : Nat} {got : Bytes} (rounds : Nat) (hp : progress h = .copying g r w got) :
    Ensures (Permitted toStringPretty c) h (copyFrom r w rounds got.length) (Copied g r w) := by
  induction rounds generalizing h got with
  | zero => trivial
  | succ rounds ih =>
      refine .ask ?_ fun chunk => ?_
      · rw [Permitted, hp]
        exact ⟨rfl, rfl⟩
      match chunk with
      | none => exact (progress_snoc ..).trans (by rw [hp]; rfl)
      | some [] => exact (progress_snoc ..).trans (by rw [hp]; rfl)
      | some (b :: chunk) =>
          have hheld : progress (h ++ [⟨.read r got.length, some (b :: chunk)⟩]) =
              .holding g r w got (b :: chunk) := by
            rw [progress_snoc, hp]
            rfl
          refine .ask ?_ fun out => ?_
          · rw [Permitted, hheld]
            exact ⟨rfl, rfl⟩
          match out with
          | .done =>
              rw [← List.length_append]
              exact ih (by rw [progress_snoc, hheld]; rfl)
          | .failed => exact (progress_snoc ..).trans (by rw [hheld]; rfl)
          | .died => trivial

theorem ensures_copyNewExcl {g : Nat} (rounds : Nat) (hp : progress h = .noted g) :
    Ensures (Permitted toStringPretty c) h (copyNewExcl rounds c.src c.trashPath) fun out h' =>
      ∃ r w, Copied g r w out h' := by
  refine .ask ?_ fun reader => ?_
  · rw [Permitted, hp]
    exact rfl
  match reader with
  | none => exact ⟨0, 0, (progress_snoc ..).trans (by rw [hp]; rfl)⟩
  | some r =>
      have hopened : progress (h ++ [⟨.openRead c.src, some r⟩]) = .opened g r := by
        rw [progress_snoc, hp]
        rfl
      refine .ask ?_ fun writer => ?_
      · rw [Permitted, hopened]
        exact rfl
      match writer with
      | none => exact ⟨r, 0, (progress_snoc ..).trans (by rw [hopened]; rfl)⟩
      | some w =>
          have hcopying : progress (h ++ [⟨.openRead c.src, some r⟩] ++ [⟨.createNew c.trashPath, some w⟩]) =
              .copying g r w [] := by
            rw [progress_snoc, hopened]
            rfl
          exact (ensures_copyFrom rounds hcopying).mono fun out h' _ hout => ⟨r, w, hout⟩

theorem ensures_writeNewExcl {metaJson : Bytes} (hprint : toStringPretty c.trashMeta = some metaJson)
    (hp : progress h = .idle) :
    Ensures (Permitted toStringPretty c) h (writeNewExcl c.metaPath metaJson) fun out h' =>
      (out = .done → ∃ g, progress h' = .noted g) ∧
        (out = .failed → progress h' = .ended) := by
  refine .ask (by rw [Permitted, hp]; exact rfl) fun file => ?_
  match file with
  | none => exact ⟨nofun, fun _ => (progress_snoc ..).trans (by rw [hp]; rfl)⟩
  | some g =>
      have hmade : progress (h ++ [⟨.createNew c.metaPath, some g⟩]) = .made g := by
        rw [progress_snoc, hp]
        rfl
      refine ⟨by rw [Permitted, hmade]; exact ⟨rfl, hprint⟩, fun out => ⟨fun hout => ⟨g, ?_⟩, fun hout => ?_⟩⟩ <;>
        rw [progress_snoc, hmade, hout] <;> rfl

/-- A call asks for nothing that is not its own, and it is at its end when it returns false. -/
theorem moveToTrashAt_ensures (c : Call) :
    Ensures (Permitted toStringPretty c) [] (moveToTrashAt toStringPretty c) fun result h =>
      result = some false → progress h = .idle ∨ progress h = .ended := by
  refine .ask trivial fun there => ?_
  cases there with
  | false => exact fun _ => .inl rfl
  | true =>
      dsimp only
      cases hprint : toStringPretty c.trashMeta with
      | none => exact fun _ => .inl rfl
      | some metaJson =>
          refine Ensures.bind (ensures_writeNewExcl hprint rfl) fun out h' _ hout => ?_
          match out with
          | .died => exact nofun
          | .failed => exact fun _ => .inr (hout.2 rfl)
          | .done =>
              obtain ⟨g, hnoted⟩ := hout.1 rfl
              refine Ensures.bind (ensures_copyNewExcl c.rounds hnoted) fun out h'' _ hcopied => ?_
              match out, hcopied with
              | .died, _ => exact nofun
              | .failed, ⟨r, w, hnoted⟩ =>
                  refine .ask (by rw [Permitted, hnoted]; exact rfl) fun removed _ => .inr ?_
                  rw [progress_snoc, hnoted]
                  rfl
              | .done, ⟨r, w, hcopied⟩ =>
                  refine .ask (by rw [Permitted, hcopied]; exact rfl) fun removed => ?_
                  match removed with
                  | .ok => exact nofun
                  | .notFound => exact nofun
                  | .failed =>
                      have hundo : progress (h'' ++ [⟨.removeFile (.source c.src), .failed⟩]) = .undo g w := by
                        rw [progress_snoc, hcopied]
                        rfl
                      refine .ask (by rw [Permitted, hundo]; exact rfl) fun removed => ?_
                      have hcopy : progress (h'' ++ [⟨.removeFile (.source c.src), .failed⟩] ++
                          [⟨.removeFile c.metaPath, removed⟩]) = .undoCopy w := by
                        rw [progress_snoc, hundo]
                        rfl
                      refine .ask (by rw [Permitted, hcopy]; exact rfl) fun removed _ => .inr ?_
                      rw [progress_snoc, hcopy]
                      rfl

end Calls

/-! ### What the files say of a call -/

namespace Disk

variable {s s' : Disk} {i j n : Nat}

structure Made (s : Disk) (i : Nat) (place : Place) (file : Nat) (bytes : Bytes) : Prop where
  name : s.names place = some file
  maker : s.maker file = some i
  bytes : s.bytes file = bytes

structure Known (n : Nat) (s : Disk) : Prop where
  bound : ∀ place file, s.names place = some file → file < s.next
  source : ∀ src file, s.names (.source src) = some file → s.maker file = none
  copying : ∀ i src file, s.copying i = some (src, file) → s.maker file = none ∧ file < s.next ∧
    (s.names (.source src) = some file ∨ s.names (.source src) = none)
  later : ∀ i, n ≤ i → s.unlinked i = none

theorem Fresh.known (h : s.Fresh) : s.Known 0 where
  bound := h.bound
  source _ file _ := h.maker file
  copying i src file hc := by
    rw [h.copying] at hc
    cases hc
  later i _ := h.unlinked i

structure Touches (s s' : Disk) (j : Nat) : Prop where
  source : ∀ src, s'.names (.source src) = s.names (.source src) ∨ s'.names (.source src) = none
  trash : ∀ dir name file, s.names (.trash dir name) = some file → s.maker file ≠ some j →
    s'.names (.trash dir name) = some file
  bound : ∀ place file, s'.names place = some file → s.names place = some file ∨ file < s'.next
  maker : ∀ file, file < s.next → s'.maker file = s.maker file
  bytes : ∀ file, file < s.next → s.maker file ≠ some j → s'.bytes file = s.bytes file
  next : s.next ≤ s'.next
  copying : ∀ i src file, s'.copying i = some (src, file) → s.copying i = some (src, file) ∨
    s.names (.source src) = some file
  others : ∀ i, i ≠ j → s'.unlinked i = s.unlinked i ∧ s'.dead i = s.dead i ∧ s'.copying i = s.copying i

structure Spares (s s' : Disk) (i : Nat) : Prop where
  made : ∀ dir name file bytes, s.Made i (.trash dir name) file bytes → s'.Made i (.trash dir name) file bytes
  unlinked : s'.unlinked i = s.unlinked i
  alive : s'.dead i = false → s.dead i = false
  reads : s'.dead i = false → ∀ src file, s.copying i = some (src, file) →
    s'.copying i = some (src, file) ∧ s'.bytes file = s.bytes file

theorem Known.touches (h : s.Known n) (ht : s.Touches s' j) (hj : j < n) : s'.Known n where
  bound place file hname := (ht.bound place file hname).elim (fun hold => (h.bound _ _ hold).trans_le ht.next) id
  source src file hname := by
    rcases ht.source src with hsame | hnone
    · rw [hsame] at hname
      rw [ht.maker file (h.bound _ _ hname)]
      exact h.source src file hname
    · rw [hnone] at hname
      cases hname
  copying i src file hc := by
    have hfile : s.maker file = none ∧ file < s.next ∧
        (s.names (.source src) = some file ∨ s.names (.source src) = none) := by
      rcases ht.copying i src file hc with hold | hname
      · exact h.copying i src file hold
      · exact ⟨h.source src file hname, h.bound _ _ hname, .inl hname⟩
    obtain ⟨hmaker, hlt, hname⟩ := hfile
    refine ⟨(ht.maker file hlt).trans hmaker, hlt.trans_le ht.next, ?_⟩
    rcases ht.source src with hsame | hnone
    · rwa [hsame]
    · exact .inr hnone
  later i hi := by
    rw [(ht.others i (by omega)).1]
    exact h.later i hi

theorem Known.spares (h : s.Known n) (ht : s.Touches s' j) (hij : i ≠ j) : s.Spares s' i where
  made dir name file bytes hmade := by
    have hother : s.maker file ≠ some j := by
      rw [hmade.maker]
      exact fun heq => hij (Option.some.inj heq)
    have hlt := h.bound _ _ hmade.name
    exact ⟨ht.trash dir name file hmade.name hother, (ht.maker file hlt).trans hmade.maker,
      (ht.bytes file hlt hother).trans hmade.bytes⟩
  unlinked := (ht.others i hij).1
  alive := (ht.others i hij).2.1 ▸ id
  reads _ src file hc := by
    obtain ⟨hmaker, hlt, -⟩ := h.copying i src file hc
    refine ⟨(ht.others i hij).2.2.trans hc, ht.bytes file hlt ?_⟩
    rw [hmaker]
    exact nofun

theorem known_others (h : s.Known n) (ho : s.Others s') (hu : s.Undisturbed s') : s'.Known n where
  bound place file hname := by
    cases place with
    | source src => exact (ho.source src file hname).2
    | trash dir name =>
        rw [ho.trash] at hname
        exact (h.bound _ _ hname).trans_le ho.next
  source src file hname := by
    rw [ho.maker]
    exact (ho.source src file hname).1
  copying i src file hc := by
    rw [ho.copying] at hc
    obtain ⟨hmaker, hlt, hname⟩ := h.copying i src file hc
    refine ⟨by rwa [ho.maker], hlt.trans_le ho.next, ?_⟩
    rcases (hu i src file hc).2 with hsame | hnone
    · rwa [hsame]
    · exact .inr hnone
  later i hi := by
    rw [ho.unlinked]
    exact h.later i hi

theorem spares_others (ho : s.Others s') (hu : s.Undisturbed s') (i : Nat) : s.Spares s' i where
  made dir name file bytes hmade := by
    refine ⟨(ho.trash dir name).trans hmade.name, by rw [ho.maker]; exact hmade.maker, ?_⟩
    rw [ho.made file (by rw [hmade.maker]; exact nofun)]
    exact hmade.bytes
  unlinked := by rw [ho.unlinked]
  alive := by rw [ho.dead]; exact id
  reads _ src file hc := ⟨by rw [ho.copying]; exact hc, (hu i src file hc).1⟩

theorem Known.crash (h : s.Known n) (j : Nat) : (s.crash j).Known n where
  bound := h.bound
  source := h.source
  copying i src file hc := by
    by_cases hij : i = j
    · subst hij
      simp [Disk.crash] at hc
    · exact h.copying i src file (by simpa [Disk.crash, hij] using hc)
  later := h.later

theorem spares_crash (s : Disk) (j i : Nat) : s.Spares (s.crash j) i where
  made _ _ _ _ hmade := ⟨hmade.name, hmade.maker, hmade.bytes⟩
  unlinked := rfl
  alive hd := by
    by_cases hij : i = j
    · subst hij
      simp [Disk.crash] at hd
    · simpa [Disk.crash, hij] using hd
  reads hd src file hc := by
    by_cases hij : i = j
    · subst hij
      simp [Disk.crash] at hd
    · exact ⟨by simpa [Disk.crash, hij] using hc, rfl⟩

theorem made_create (s : Disk) (i : Nat) (place : Place) : (s.create i place).Made i place s.next [] where
  name := Function.update_self ..
  maker := Function.update_self ..
  bytes := Function.update_self ..

theorem Made.append {place : Place} {file : Nat} {bytes : Bytes} (h : s.Made i place file bytes) (more : Bytes) :
    (s.append file more).Made i place file (bytes ++ more) where
  name := h.name
  maker := h.maker
  bytes := (Function.update_self ..).trans (by rw [h.bytes])

/-! A step of a call touches what is its own. -/

theorem touches_refl (s : Disk) (j : Nat) : s.Touches s j where
  source _ := .inl rfl
  trash _ _ _ h _ := h
  bound _ _ h := .inl h
  maker _ _ := rfl
  bytes _ _ _ := rfl
  next := Nat.le_refl _
  copying _ _ _ h := .inl h
  others _ _ := ⟨rfl, rfl, rfl⟩

theorem touches_create {dir name : List Char} (hfree : s.names (.trash dir name) = none) (j : Nat) :
    s.Touches (s.create j (.trash dir name)) j where
  source _ := .inl (by simp [create])
  trash dir' name' file hname _ := by
    refine (Function.update_of_ne ?_ _ _).trans hname
    intro heq
    rw [heq, hfree] at hname
    cases hname
  bound place file hname := by
    by_cases hplace : place = .trash dir name
    · subst hplace
      have hfile : some s.next = some file := by simpa [create] using hname
      cases hfile
      exact .inr (Nat.lt_succ_self _)
    · exact .inl (by simpa [create, hplace] using hname)
  maker _ hlt := Function.update_of_ne hlt.ne _ _
  bytes _ hlt _ := Function.update_of_ne hlt.ne _ _
  next := Nat.le_succ _
  copying _ _ _ h := .inl h
  others _ _ := ⟨rfl, rfl, rfl⟩

theorem touches_append {file : Nat} (hmaker : s.maker file = some j) (bytes : Bytes) :
    s.Touches (s.append file bytes) j where
  __ := touches_refl s j
  bytes file' _ hother := by
    refine Function.update_of_ne ?_ _ _
    rintro rfl
    exact hother hmaker

theorem Touches.crash (h : s.Touches s' j) : s.Touches (s'.crash j) j where
  __ := h
  copying i src file hc := by
    by_cases hij : i = j
    · subst hij
      simp [Disk.crash] at hc
    · exact h.copying i src file (by simpa [Disk.crash, hij] using hc)
  others i hij := by
    have hothers := h.others i hij
    simpa [Disk.crash, hij] using hothers

theorem touches_startCopy {src : List Char} {file : Nat} (hname : s.names (.source src) = some file) (j : Nat) :
    s.Touches (s.startCopy j src file) j where
  __ := touches_refl s j
  copying i src' file' hc := by
    by_cases hij : i = j
    · subst hij
      have hsame : some (src, file) = some (src', file') := by simpa [startCopy] using hc
      cases hsame
      exact .inr hname
    · exact .inl (by simpa [startCopy, hij] using hc)
  others i hij := ⟨rfl, rfl, Function.update_of_ne hij _ _⟩

theorem touches_endCopy (s : Disk) (j : Nat) : s.Touches (s.endCopy j) j where
  __ := touches_refl s j
  copying i src file hc := by
    by_cases hij : i = j
    · subst hij
      simp [endCopy] at hc
    · exact .inl (by simpa [endCopy, hij] using hc)
  others i hij := ⟨rfl, rfl, Function.update_of_ne hij _ _⟩

theorem touches_unlink {place : Place} {file : Nat}
    (hown : ∀ dir name, place = .trash dir name → s.names place = some file ∧ s.maker file = some j) :
    s.Touches (s.unlink j place file) j where
  __ := touches_endCopy s j
  source src := by
    by_cases hplace : Place.source src = place
    · exact .inr (by simp [unlink, hplace])
    · exact .inl (by simp [unlink, hplace])
  trash dir name file' hname hother := by
    refine (Function.update_of_ne ?_ _ _).trans hname
    intro heq
    obtain ⟨hfile, hmaker⟩ := hown dir name heq.symm
    rw [← heq, hname] at hfile
    cases hfile
    exact hother hmaker
  bound place' file' hname := by
    by_cases hplace : place' = place
    · simp [unlink, hplace] at hname
    · exact .inl (by simpa [unlink, hplace] using hname)
  others i hij := by
    cases place with
    | source src => exact ⟨Function.update_of_ne hij _ _, rfl, Function.update_of_ne hij _ _⟩
    | trash dir name => exact ⟨rfl, rfl, Function.update_of_ne hij _ _⟩

end Disk

section Moves

variable (toStringPretty : TrashMeta → Option Bytes)

def Call.Noted (c : Call) (s : Disk) (i g : Nat) : Prop :=
  ∃ metaJson, toStringPretty c.trashMeta = some metaJson ∧ s.Made i c.metaPath g metaJson

structure Call.Entry (c : Call) (s : Disk) (i g w : Nat) (got : Bytes) : Prop where
  noted : c.Noted toStringPretty s i g
  copy : s.Made i c.trashPath w got
  ne : g ≠ w

def Disk.Reading (s : Disk) (i : Nat) (src : List Char) (r : Nat) (holds : Bytes → Prop) : Prop :=
  s.dead i = false → s.copying i = some (src, r) ∧ holds (s.bytes r)

def Progress.Agrees (s : Disk) (i : Nat) (c : Call) : Progress → Prop
  | .idle | .ended | .lost => s.unlinked i = none
  | .made g => s.unlinked i = none ∧ s.Made i c.metaPath g []
  | .noted g => s.unlinked i = none ∧ c.Noted toStringPretty s i g
  | .opened g r => s.unlinked i = none ∧ c.Noted toStringPretty s i g ∧ s.Reading i c.src r fun _ => True
  | .copying g r w got => s.unlinked i = none ∧ c.Entry toStringPretty s i g w got ∧
      s.Reading i c.src r (got <+: ·)
  | .holding g r w got chunk => s.unlinked i = none ∧ c.Entry toStringPretty s i g w got ∧
      s.Reading i c.src r (got ++ chunk <+: ·)
  | .copied g r w => s.unlinked i = none ∧ ∃ got, c.Entry toStringPretty s i g w got ∧ s.Reading i c.src r (got = ·)
  | .moved g w => ∃ got, c.Entry toStringPretty s i g w got ∧ ∀ bytes, s.unlinked i = some bytes → got = bytes
  | .undo g w => s.unlinked i = none ∧ ∃ got, c.Entry toStringPretty s i g w got
  | .undoCopy w => s.unlinked i = none ∧ ∃ got, s.Made i c.trashPath w got

variable {toStringPretty} {s s' : Disk} {i n g w r file : Nat} {c : Call} {p : Progress} {got : Bytes}
  {holds : Bytes → Prop} {src : List Char}

theorem Call.Noted.spares (h : c.Noted toStringPretty s i g) (hs : s.Spares s' i) : c.Noted toStringPretty s' i g :=
  h.imp fun _ => And.imp_right (hs.made _ _ _ _)

theorem Call.Entry.spares (h : c.Entry toStringPretty s i g w got) (hs : s.Spares s' i) :
    c.Entry toStringPretty s' i g w got :=
  ⟨h.noted.spares hs, hs.made _ _ _ _ h.copy, h.ne⟩

theorem Disk.Reading.spares (h : s.Reading i src r holds) (hs : s.Spares s' i) : s'.Reading i src r holds := by
  intro halive
  obtain ⟨hcopying, hbytes⟩ := h (hs.alive halive)
  obtain ⟨hcopying', hsame⟩ := hs.reads halive src r hcopying
  exact ⟨hcopying', hsame ▸ hbytes⟩

/-- What is spared to a call is all that it relies on. -/
theorem Progress.Agrees.spares (h : p.Agrees toStringPretty s i c) (hs : s.Spares s' i) :
    p.Agrees toStringPretty s' i c := by
  cases p with
  | idle => exact hs.unlinked.trans h
  | ended => exact hs.unlinked.trans h
  | lost => exact hs.unlinked.trans h
  | made g => exact ⟨hs.unlinked.trans h.1, hs.made _ _ _ _ h.2⟩
  | noted g => exact ⟨hs.unlinked.trans h.1, h.2.spares hs⟩
  | opened g r => exact ⟨hs.unlinked.trans h.1, h.2.1.spares hs, h.2.2.spares hs⟩
  | copying g r w got => exact ⟨hs.unlinked.trans h.1, h.2.1.spares hs, h.2.2.spares hs⟩
  | holding g r w got chunk => exact ⟨hs.unlinked.trans h.1, h.2.1.spares hs, h.2.2.spares hs⟩
  | copied g r w => exact ⟨hs.unlinked.trans h.1, h.2.imp fun _ h => ⟨h.1.spares hs, h.2.spares hs⟩⟩
  | moved g w => exact h.imp fun _ h => ⟨h.1.spares hs, by rw [hs.unlinked]; exact h.2⟩
  | undo g w => exact ⟨hs.unlinked.trans h.1, h.2.imp fun _ h => h.spares hs⟩
  | undoCopy w => exact ⟨hs.unlinked.trans h.1, h.2.imp fun _ => hs.made _ _ _ _⟩

/-! A call keeps what it has made while it goes on. -/

theorem Call.Noted.imp (h : c.Noted toStringPretty s i g)
    (hmade : ∀ bytes, s.Made i c.metaPath g bytes → s'.Made i c.metaPath g bytes) : c.Noted toStringPretty s' i g :=
  Exists.imp (fun metaJson => And.imp_right (hmade metaJson)) h

theorem Disk.Made.create {place : Place} {dir name : List Char} {bytes : Bytes} (h : s.Made i place file bytes)
    (hk : s.Known n) (hfree : s.names (.trash dir name) = none) :
    (s.create i (.trash dir name)).Made i place file bytes where
  name := by
    refine (Function.update_of_ne ?_ _ _).trans h.name
    rintro rfl
    rw [h.name] at hfree
    cases hfree
  maker := (Function.update_of_ne (hk.bound _ _ h.name).ne _ _).trans h.maker
  bytes := (Function.update_of_ne (hk.bound _ _ h.name).ne _ _).trans h.bytes

theorem Call.Entry.append (h : c.Entry toStringPretty s i g w got) (more : Bytes) :
    c.Entry toStringPretty (s.append w more) i g w (got ++ more) where
  noted := h.noted.imp fun _ hmade =>
    ⟨hmade.name, hmade.maker, (Function.update_of_ne h.ne _ _).trans hmade.bytes⟩
  copy := h.copy.append more
  ne := h.ne

theorem Call.Entry.endCopy (h : c.Entry toStringPretty s i g w got) (j : Nat) :
    c.Entry toStringPretty (s.endCopy j) i g w got where
  noted := h.noted.imp fun _ hmade => ⟨hmade.name, hmade.maker, hmade.bytes⟩
  copy := ⟨h.copy.name, h.copy.maker, h.copy.bytes⟩
  ne := h.ne

theorem Disk.Made.unlink {dir name : List Char} {bytes : Bytes} {r : Nat}
    (h : s.Made i (.trash dir name) file bytes) : (s.unlink i (.source src) r).Made i (.trash dir name) file bytes where
  name := by
    change Function.update s.names (.source src) none (.trash dir name) = _
    rw [Function.update_of_ne (by simp)]
    exact h.name
  maker := h.maker
  bytes := h.bytes

theorem Call.Entry.unlink (h : c.Entry toStringPretty s i g w got) :
    c.Entry toStringPretty (s.unlink i (.source src) r) i g w got where
  noted := h.noted.imp fun _ hmade => hmade.unlink
  copy := h.copy.unlink
  ne := h.ne

/-- A file of its own that a call removes, or fails to. -/
theorem Disk.Made.remove {dir name : List Char} {bytes : Bytes} (h : s.Made i (.trash dir name) file bytes)
    {a : Removed} (hs : s.answers i ⟨.removeFile (.trash dir name), a⟩ s') :
    s.Touches s' i ∧ s'.unlinked i = s.unlinked i ∧
      ∀ place file' bytes', file ≠ file' → s.Made i place file' bytes' → s'.Made i place file' bytes' := by
  obtain ⟨-, hs⟩ := hs
  match a with
  | .ok =>
      obtain ⟨file', hname, rfl⟩ := hs
      obtain rfl : file = file' := Option.some.inj (h.name.symm.trans hname)
      refine ⟨Disk.touches_unlink fun _ _ heq => ?_, rfl, fun place file' bytes' hne hmade => ?_⟩
      · exact ⟨hname, h.maker⟩
      · refine ⟨(Function.update_of_ne ?_ _ _).trans hmade.name, hmade.maker, hmade.bytes⟩
        rintro rfl
        exact hne (Option.some.inj (h.name.symm.trans hmade.name))
  | .notFound =>
      obtain ⟨hname, rfl⟩ := hs
      rw [h.name] at hname
      cases hname
  | .failed =>
      obtain rfl : s' = s.endCopy i := hs
      exact ⟨s.touches_endCopy i, rfl, fun _ _ _ _ hmade => ⟨hmade.name, hmade.maker, hmade.bytes⟩⟩

/-- An answer touches what is the call's own, and leaves the call where it then stands. -/
theorem Progress.Agrees.answer (hk : s.Known n) (h : p.Agrees toStringPretty s i c) {e : Exchange Ask Answer}
    (hq : p.Allows toStringPretty c e.question) (hans : s.answers i e s') :
    s.Touches s' i ∧ (p.step e).Agrees toStringPretty s' i c := by
  obtain ⟨halive, hs⟩ := hans
  obtain ⟨q, a⟩ := e
  cases p with
  | idle =>
      cases q with
      | createDirAll dir =>
          obtain rfl : s' = s := hs
          exact ⟨s'.touches_refl i, h⟩
      | createNew place =>
          obtain rfl : place = c.metaPath := hq
          cases a with
          | none =>
              obtain rfl : s' = s := hs
              exact ⟨s'.touches_refl i, h⟩
          | some g =>
              obtain ⟨hfree, rfl, rfl⟩ := hs
              exact ⟨Disk.touches_create hfree i, h, s.made_create i c.metaPath⟩
      | _ => exact hq.elim
  | made g =>
      obtain ⟨hun, hmade⟩ := h
      cases q with
      | writeAll file bytes =>
          obtain ⟨rfl, hprint⟩ := hq
          match a with
          | .done =>
              obtain rfl : s' = s.append file bytes := hs
              exact ⟨Disk.touches_append hmade.maker _, hun, bytes, hprint, hmade.append bytes⟩
          | .failed =>
              obtain ⟨part, -, rfl⟩ := hs
              exact ⟨Disk.touches_append hmade.maker _, hun⟩
          | .died =>
              obtain ⟨part, -, rfl⟩ := hs
              exact ⟨(Disk.touches_append hmade.maker _).crash, hun⟩
      | _ => exact hq.elim
  | noted g =>
      obtain ⟨hun, hnoted⟩ := h
      cases q with
      | openRead src =>
          obtain rfl : src = c.src := hq
          cases a with
          | none =>
              obtain rfl : s' = s := hs
              exact ⟨s'.touches_refl i, hun, hnoted⟩
          | some r =>
              obtain ⟨hname, rfl⟩ := hs
              exact ⟨Disk.touches_startCopy hname i, hun,
                hnoted.imp fun _ hmade => ⟨hmade.name, hmade.maker, hmade.bytes⟩,
                fun _ => ⟨Function.update_self .., trivial⟩⟩
      | removeFile place =>
          obtain rfl : place = c.metaPath := hq
          obtain ⟨metaJson, -, hmade⟩ := hnoted
          obtain ⟨htouches, hsame, -⟩ := hmade.remove ⟨halive, hs⟩
          exact ⟨htouches, hsame.trans hun⟩
      | _ => exact hq.elim
  | opened g r =>
      obtain ⟨hun, hnoted, hreads⟩ := h
      cases q with
      | createNew place =>
          obtain rfl : place = c.trashPath := hq
          cases a with
          | none =>
              obtain rfl : s' = s := hs
              exact ⟨s'.touches_refl i, hun, hnoted⟩
          | some w =>
              obtain ⟨hfree, rfl, rfl⟩ := hs
              obtain ⟨metaJson, hprint, hmade⟩ := hnoted
              exact ⟨Disk.touches_create hfree i, hun,
                ⟨⟨metaJson, hprint, hmade.create hk hfree⟩, s.made_create i c.trashPath, (hk.bound _ _ hmade.name).ne⟩,
                fun _ => ⟨(hreads halive).1, List.nil_prefix⟩⟩
      | _ => exact hq.elim
  | copying g r w got =>
      obtain ⟨hun, hentry, hreads⟩ := h
      obtain ⟨hcopying, rest, hrest⟩ := hreads halive
      cases q with
      | read file offset =>
          obtain ⟨rfl, rfl⟩ := hq
          have hdrop : (s.bytes file).drop got.length = rest := by rw [← hrest, List.drop_left]
          match a with
          | none =>
              obtain rfl : s' = s := hs
              exact ⟨s'.touches_refl i, hun, hentry.noted⟩
          | some [] =>
              obtain ⟨-, hend, rfl⟩ := hs
              refine ⟨s'.touches_refl i, hun, got, hentry, fun _ => ⟨hcopying, ?_⟩⟩
              rw [← hrest, ← hdrop, hend rfl, List.append_nil]
          | some (b :: chunk) =>
              obtain ⟨hchunk, -, rfl⟩ := hs
              refine ⟨s'.touches_refl i, hun, hentry, fun _ => ⟨hcopying, ?_⟩⟩
              rw [hdrop] at hchunk
              rw [← hrest]
              exact (List.prefix_append_right_inj got).mpr hchunk
      | _ => exact hq.elim
  | holding g r w got chunk =>
      obtain ⟨hun, hentry, hreads⟩ := h
      obtain ⟨hcopying, hgot⟩ := hreads halive
      cases q with
      | writeAll file bytes =>
          obtain ⟨rfl, rfl⟩ := hq
          have htouches (part : Bytes) := Disk.touches_append hentry.copy.maker part
          match a with
          | .done =>
              obtain rfl : s' = s.append file bytes := hs
              refine ⟨htouches bytes, hun, hentry.append bytes, fun _ => ⟨hcopying, ?_⟩⟩
              have hother : r ≠ file := by
                rintro rfl
                have hmaker := (hk.copying i c.src r hcopying).1
                rw [hentry.copy.maker] at hmaker
                cases hmaker
              change got ++ bytes <+: Function.update s.bytes file _ r
              rwa [Function.update_of_ne hother]
          | .failed =>
              obtain ⟨part, -, rfl⟩ := hs
              exact ⟨htouches part, hun, (hentry.append part).noted⟩
          | .died =>
              obtain ⟨part, -, rfl⟩ := hs
              exact ⟨(htouches part).crash, hun⟩
      | _ => exact hq.elim
  | copied g r w =>
      obtain ⟨hun, got, hentry, hreads⟩ := h
      obtain ⟨hcopying, rfl⟩ := hreads halive
      cases q with
      | removeFile place =>
          obtain rfl : place = .source c.src := hq
          match a with
          | .ok =>
              -- a source that is being copied is there as it was, or it is gone
              obtain ⟨file, hname, rfl⟩ := hs
              obtain rfl : r = file := by
                rcases (hk.copying i c.src r hcopying).2.2 with hsame | hnone
                · exact Option.some.inj (hsame.symm.trans hname)
                · rw [hname] at hnone
                  cases hnone
              refine ⟨Disk.touches_unlink nofun, _, hentry.unlink, fun bytes hbytes => ?_⟩
              change Function.update s.unlinked i (some (s.bytes r)) i = some bytes at hbytes
              rw [Function.update_self] at hbytes
              exact Option.some.inj hbytes
          | .notFound =>
              obtain ⟨-, rfl⟩ := hs
              refine ⟨s.touches_endCopy i, _, hentry.endCopy i, fun bytes hbytes => ?_⟩
              cases hun.symm.trans hbytes
          | .failed =>
              obtain rfl : s' = s.endCopy i := hs
              exact ⟨s.touches_endCopy i, hun, _, hentry.endCopy i⟩
      | _ => exact hq.elim
  | undo g w =>
      obtain ⟨hun, got, hentry⟩ := h
      cases q with
      | removeFile place =>
          obtain rfl : place = c.metaPath := hq
          obtain ⟨metaJson, -, hmade⟩ := hentry.noted
          obtain ⟨htouches, hsame, hkept⟩ := hmade.remove ⟨halive, hs⟩
          exact ⟨htouches, hsame.trans hun, got, hkept _ _ _ hentry.ne hentry.copy⟩
      | _ => exact hq.elim
  | undoCopy w =>
      obtain ⟨hun, got, hmade⟩ := h
      cases q with
      | removeFile place =>
          obtain rfl : place = c.trashPath := hq
          obtain ⟨htouches, hsame, -⟩ := hmade.remove ⟨halive, hs⟩
          exact ⟨htouches, hsame.trans hun⟩
      | _ => exact hq.elim
  | moved g w => cases q <;> exact hq.elim
  | ended => cases q <;> exact hq.elim
  | lost => cases q <;> exact hq.elim

/-! ### Runs -/

structure Inv (toStringPretty : TrashMeta → Option Bytes) (p : Pool Disk (moveToTrashAt toStringPretty)) : Prop where
  known : p.shared.Known p.fibers.length
  calls : ∀ (i : Nat) f, p.fibers[i]? = some f → (progress f.asked).Agrees toStringPretty p.shared i f.key

theorem Inv.step {p p' : Pool Disk (moveToTrashAt toStringPretty)} {a : PoolAct Call Ask Answer}
    (h : Inv toStringPretty p) (hstep : Pool.Step (rules toStringPretty True) p a p') : Inv toStringPretty p' := by
  cases hstep with
  | start key =>
      constructor
      · refine { h.known with later := fun i hi => h.known.later i ?_ }
        rw [List.length_append] at hi
        omega
      · intro i f hf
        rcases Nat.lt_trichotomy i p.fibers.length with hlt | rfl | hgt
        · rw [List.getElem?_append_left hlt] at hf
          exact h.calls i f hf
        · rw [List.getElem?_concat_length] at hf
          cases hf
          exact h.known.later _ (Nat.le_refl _)
        · rw [List.getElem?_eq_none (by rw [List.length_append]; exact hgt)] at hf
          cases hf
  | move hs =>
      rcases hs with ⟨j, rfl⟩ | ⟨hothers, hcalm⟩
      · exact ⟨h.known.crash j, fun i f hf => (h.calls i f hf).spares (Disk.spares_crash _ j i)⟩
      · exact ⟨Disk.known_others h.known hothers (hcalm trivial),
          fun i f hf => (h.calls i f hf).spares (Disk.spares_others hothers (hcalm trivial) i)⟩
  | @answer s j f q next b hf hq hs =>
      have hallowed := Fiber.allowed_next (moveToTrashAt_ensures f.key) hq
      obtain ⟨htouches, hagrees⟩ := (h.calls j f hf).answer (e := ⟨q, b⟩) h.known hallowed hs
      have hlt := (List.getElem?_eq_some_iff.mp hf).1
      refine ⟨by rw [List.length_set]; exact h.known.touches htouches hlt, fun i g hg => ?_⟩
      by_cases hij : i = j
      · subst hij
        rw [List.getElem?_set_self hlt] at hg
        cases hg
        rw [Fiber.answer, progress_snoc]
        exact hagrees
      · rw [List.getElem?_set_ne (Ne.symm hij)] at hg
        exact (h.calls i g hg).spares (h.known.spares htouches hij)

theorem inv_of_reachable {s₀ : Disk} (hs₀ : s₀.Fresh) {p : Pool Disk (moveToTrashAt toStringPretty)}
    (hp : Pool.Reachable (rules toStringPretty True) (fun _ _ => True) s₀ p) : Inv toStringPretty p :=
  hp.invariant ⟨hs₀.known, nofun⟩ fun _ _ _ h hstep _ => h.step hstep

/-- **Trash moves lose nothing.** What a source held when a call unlinked it stands in the entry of that
call, whole and beside its whole sidecar, from then on; and no step of a call changes a file that another
call has made. -/
theorem moves_lose_nothing {s₀ : Disk} (hs₀ : s₀.Fresh) {p : Pool Disk (moveToTrashAt toStringPretty)}
    (hp : Pool.Reachable (rules toStringPretty True) (fun _ _ => True) s₀ p) :
    (∀ (i : Nat) (f : Fiber (moveToTrashAt toStringPretty)) (bytes : Bytes), p.fibers[i]? = some f →
      p.shared.unlinked i = some bytes → ∃ g w metaJson, toStringPretty f.key.trashMeta = some metaJson ∧
        p.shared.Made i f.key.metaPath g metaJson ∧ p.shared.Made i f.key.trashPath w bytes) ∧
    ∀ (j : Nat) (e : Exchange Ask Answer) (p' : Pool Disk (moveToTrashAt toStringPretty)),
      Pool.Step (rules toStringPretty True) p (.answer j e) p' →
        ∀ (i : Nat) (dir name : List Char) (file : Nat) (bytes : Bytes), i ≠ j →
          p.shared.Made i (.trash dir name) file bytes → p'.shared.Made i (.trash dir name) file bytes := by
  have hinv := inv_of_reachable hs₀ hp
  constructor
  · intro i f bytes hf hun
    have h := hinv.calls i f hf
    generalize progress f.asked = stage at h
    have hmoved : ∃ g w, f.key.Entry toStringPretty p.shared i g w bytes := by
      cases stage with
      | moved g w =>
          obtain ⟨got, hentry, hsame⟩ := h
          exact ⟨g, w, hsame bytes hun ▸ hentry⟩
      | idle => cases h.symm.trans hun
      | ended => cases h.symm.trans hun
      | lost => cases h.symm.trans hun
      | _ => cases h.1.symm.trans hun
    obtain ⟨g, w, ⟨metaJson, hprint, hmeta⟩, hcopy, -⟩ := hmoved
    exact ⟨g, w, metaJson, hprint, hmeta, hcopy⟩
  · rintro j e p' hstep i dir name file bytes hij hmade
    cases hstep with
    | @answer s _ f q next b hf hq hs =>
        have hallowed := Fiber.allowed_next (moveToTrashAt_ensures f.key) hq
        obtain ⟨htouches, -⟩ := (hinv.calls j f hf).answer (e := ⟨q, b⟩) hinv.known hallowed hs
        exact (hinv.known.spares htouches hij).made dir name file bytes hmade

/-! One message of one byte. -/

def inboxCall : Call where
  src := "in.json".toList
  trashDir := "trash".toList
  kind := .relayInbox
  identifier := "in".toList
  reason := "expired".toList
  size := 1
  nowMs := 0
  pid := 7
  counter := 0
  rounds := 2

def inboxDisk : Disk where
  names place := if place = .source inboxCall.src then some 0 else none
  bytes file := if file = 0 then [7] else []
  next := 1
  maker _ := none
  copying _ := none
  unlinked _ := none
  dead _ := false

def prettyText (m : TrashMeta) : Bytes :=
  encodeUtf8 ("\x7b\n  \"originalPath\": \"".toList ++ m.originalPath ++ "\",\n  \"reason\": \"".toList ++ m.reason ++
    "\",\n  \"prunedAt\": \"".toList ++ m.prunedAt ++ "\",\n  \"type\": \"".toList ++ m.kind.toList ++
    "\",\n  \"size\": ".toList ++ Nat.toDigits 10 m.size.toNat ++ "\n\x7d".toList)

def prettyMeta (m : TrashMeta) : Option Bytes :=
  some (prettyText m)

theorem inboxDisk_fresh : inboxDisk.Fresh where
  bound place file h := by
    simp only [inboxDisk] at h
    split_ifs at h
    cases h
    exact Nat.one_pos
  maker _ := rfl
  copying _ := rfl
  unlinked _ := rfl
  dead _ := rfl

theorem Call.trashPath_ne_metaPath (c : Call) : c.trashPath ≠ c.metaPath := by
  intro h
  have hname := (Place.trash.inj h).2
  have hlen := congrArg List.length hname
  rw [List.length_append] at hlen
  have hpos : 0 < "_meta.json".toList.length := by decide
  omega

def inboxRun : List (Exchange Ask Answer) :=
  [⟨.createDirAll inboxCall.trashDir, true⟩, ⟨.createNew inboxCall.metaPath, some 1⟩,
    ⟨.writeAll 1 (prettyText inboxCall.trashMeta), .done⟩, ⟨.openRead inboxCall.src, some 0⟩,
    ⟨.createNew inboxCall.trashPath, some 2⟩, ⟨.read 0 0, some [7]⟩, ⟨.writeAll 2 [7], .done⟩, ⟨.read 0 1, some []⟩,
    ⟨.removeFile (.source inboxCall.src), .ok⟩]

theorem inboxCall_moved :
    ∃ p, Pool.Reachable (rules prettyMeta True) (fun _ _ => True) inboxDisk p ∧ p.shared.unlinked 0 = some [7] ∧
      ∃ g w metaJson, prettyMeta inboxCall.trashMeta = some metaJson ∧
        p.shared.Made 0 inboxCall.metaPath g metaJson ∧ p.shared.Made 0 inboxCall.trashPath w [7] := by
  have hstart : Pool.Reachable (rules prettyMeta True) (fun _ _ => True) inboxDisk ⟨inboxDisk, [.new inboxCall]⟩ :=
    Pool.Reachable.init.step (.start inboxCall) trivial
  let noted := (inboxDisk.create 0 inboxCall.metaPath).append 1 (prettyText inboxCall.trashMeta)
  let copied := ((noted.startCopy 0 inboxCall.src 0).create 0 inboxCall.trashPath).append 2 [7]
  have hleads : (moveToTrashAt prettyMeta inboxCall).Leads inboxRun (.pure (some true)) := by
    refine .ask (A := Answer) (q := .createDirAll inboxCall.trashDir) true ?_
    refine .ask (A := Answer) (q := .createNew inboxCall.metaPath) (some 1) ?_
    refine .ask (A := Answer) (q := .writeAll 1 (prettyText inboxCall.trashMeta)) .done ?_
    refine .ask (A := Answer) (q := .openRead inboxCall.src) (some 0) ?_
    refine .ask (A := Answer) (q := .createNew inboxCall.trashPath) (some 2) ?_
    refine .ask (A := Answer) (q := .read 0 0) (some [7]) ?_
    refine .ask (A := Answer) (q := .writeAll 2 [7]) .done ?_
    refine .ask (A := Answer) (q := .read 0 1) (some []) ?_
    exact .ask (A := Answer) (q := .removeFile (.source inboxCall.src)) .ok .here
  have hfree : noted.names inboxCall.trashPath = none := by
    change Function.update inboxDisk.names inboxCall.metaPath (some 1) inboxCall.trashPath = none
    rw [Function.update_of_ne inboxCall.trashPath_ne_metaPath]
    rfl
  have hserves : Pool.Serves (rules prettyMeta True) 0 inboxDisk inboxRun (copied.unlink 0 (.source inboxCall.src) 0) := by
    exact ⟨_, ⟨rfl, rfl⟩, _, ⟨rfl, rfl, rfl, rfl⟩, noted, ⟨rfl, rfl⟩, _, ⟨rfl, rfl, rfl⟩, _, ⟨rfl, hfree, rfl, rfl⟩,
      _, ⟨rfl, ⟨[], rfl⟩, nofun, rfl⟩, copied, ⟨rfl, rfl⟩, _, ⟨rfl, List.nil_prefix, fun _ => rfl, rfl⟩,
      _, ⟨rfl, 0, rfl, rfl⟩, rfl⟩
  obtain ⟨f, hkey, -, -, hreach⟩ := hstart.serve rfl hleads hserves fun _ _ _ => trivial
  refine ⟨_, hreach, rfl, ?_⟩
  have hmoved := (moves_lose_nothing inboxDisk_fresh hreach).1 0 f [7] rfl rfl
  rwa [hkey] at hmoved

end Moves

end QuorumDispatch.Gc
