import Mathlib.Data.List.TakeWhile
import QuorumDispatch.Events.Writer
import QuorumDispatch.Lib.Fibers

/-!
The files of the event streams. A writer looks in the directory for the epochs of its session and
creates a file of the next one. Session names may contain what separates a name from its epoch, and
other writers may come in between; no two writers get the same file.
-/

namespace QuorumDispatch.Events

open Lib

set_option linter.dupNamespace false

abbrev FileName := List Char

def separator : List Char := ".daemon.".toList

def extension : List Char := ".jsonl".toList

def fileName (session : SessionName) (epoch : UInt64) : FileName :=
  session.text ++ separator ++ Nat.toDigits 10 epoch.toNat ++ extension

/-- `digits.parse::<u64>()`. -/
def parseEpoch (digits : List Char) : Option UInt64 :=
  if Nat.ofDigitChars 10 digits 0 < 2 ^ 64 then some (.ofNat (Nat.ofDigitChars 10 digits 0)) else none

def epochOf? (session : SessionName) (name : FileName) : Option UInt64 := do
  let rest ← name.dropPrefix? session.text
  let rest ← rest.dropPrefix? separator
  let digits ← rest.dropSuffix? extension
  if digits.isEmpty || !digits.all Char.isDigit then none else parseEpoch digits

def scanMaxEpoch (session : SessionName) (names : List FileName) : UInt64 :=
  (names.filterMap (epochOf? session)).foldl max 0

def saturatingSucc (epoch : UInt64) : UInt64 := if epoch = .ofNat (2 ^ 64 - 1) then epoch else epoch + 1

/-! ### Opening a file -/

inductive DirQ where
  | scan
  | createNew (name : FileName)

inductive Created where
  | file
  | alreadyExists
  | failed
deriving DecidableEq

def DirA : DirQ → Type
  | .scan => List FileName
  | .createNew _ => Created

abbrev Opening := Dialog DirQ DirA

def openWithRetry (session : SessionName) : Nat → UInt64 → Opening (Option UInt64)
  | 0, _ => pure none
  | tries + 1, epoch => do
      match ← Dialog.query (A := DirA) (.createNew (fileName session epoch)) with
      | .file => pure (some epoch)
      | .alreadyExists => openWithRetry session tries (saturatingSucc epoch)
      | .failed => pure none

/-- The epoch of the file that `open` creates. -/
def openFile (session : SessionName) : Opening (Option UInt64) := do
  let names ← Dialog.query (A := DirA) .scan
  openWithRetry session 8 (saturatingSucc (scanMaxEpoch session names))

/-- The directory, as the names in it. A scan shows what it shows, and only one creation of a name
succeeds. Other files may come, of which the writers know nothing. -/
def directory : PoolRules (List FileName) openFile where
  answers
    | dir, _, ⟨.scan, names⟩, dir' => List.Subset names dir ∧ dir' = dir
    | dir, _, ⟨.createNew name, .file⟩, dir' => name ∉ dir ∧ dir' = name :: dir
    | dir, _, ⟨.createNew name, .alreadyExists⟩, dir' => name ∈ dir ∧ dir' = dir
    | dir, _, ⟨.createNew _, .failed⟩, dir' => dir' = dir
  moves p dir' := p.shared ⊆ dir'

/-! ### Names -/

section Names

variable {session session' : SessionName} {name : FileName} {epoch epoch' : UInt64}

theorem split_name {xs ys ds es : List Char} (hds : ∀ c ∈ ds, c.isDigit = true)
    (hes : ∀ c ∈ es, c.isDigit = true)
    (h : xs ++ separator ++ ds ++ extension = ys ++ separator ++ es ++ extension) : xs = ys ∧ ds = es := by
  have hback : ∀ xs ds : List Char, (∀ c ∈ ds, c.isDigit = true) →
      (xs ++ separator ++ ds).reverse.takeWhile Char.isDigit = ds.reverse := by
    intro xs ds hds
    rw [List.reverse_append, List.takeWhile_append_of_pos fun c hc => hds c (List.mem_reverse.mp hc),
      List.reverse_append]
    exact List.append_nil _
  have hstem := List.append_cancel_right h
  have hdigits : ds = es := by
    apply List.reverse_injective
    rw [← hback xs ds hds, ← hback ys es hes, hstem]
  subst hdigits
  exact ⟨List.append_cancel_right (List.append_cancel_right hstem), rfl⟩

theorem isDigit_of_mem_toDigits {n : Nat} {c : Char} (hc : c ∈ Nat.toDigits 10 n) : c.isDigit = true :=
  Nat.isDigit_of_mem_toDigits (by decide) (by decide) hc

theorem epochOf?_eq_some : epochOf? session name = some epoch ↔ ∃ digits, digits ≠ [] ∧
    (∀ c ∈ digits, c.isDigit = true) ∧ parseEpoch digits = some epoch ∧
      name = session.text ++ separator ++ digits ++ extension := by
  unfold epochOf?
  simp only [Option.bind_eq_bind, Option.bind_eq_some_iff, List.dropPrefix?_eq_some_iff,
    List.dropSuffix?_eq_some_iff]
  constructor
  · rintro ⟨rest, ⟨xs, rfl, hxs⟩, rest', ⟨ys, rfl, hys⟩, digits, ⟨zs, rfl, hzs⟩, hdigits⟩
    obtain rfl := eq_of_beq hxs
    obtain rfl := eq_of_beq hys
    obtain rfl := eq_of_beq hzs
    rw [Option.ite_none_left_eq_some, Bool.or_eq_true, not_or, List.isEmpty_iff, Bool.not_eq_true',
      Bool.not_eq_false, List.all_eq_true] at hdigits
    obtain ⟨⟨hne, hall⟩, hparse⟩ := hdigits
    exact ⟨digits, hne, hall, hparse, by simp only [List.append_assoc]⟩
  · rintro ⟨digits, hne, hall, hparse, rfl⟩
    refine ⟨_, ⟨_, by simp only [List.append_assoc], beq_self_eq_true _⟩, _,
      ⟨_, rfl, beq_self_eq_true _⟩, digits, ⟨_, rfl, beq_self_eq_true _⟩, ?_⟩
    rw [Option.ite_none_left_eq_some, Bool.or_eq_true, not_or, List.isEmpty_iff, Bool.not_eq_true',
      Bool.not_eq_false, List.all_eq_true]
    exact ⟨⟨hne, hall⟩, hparse⟩

theorem parseEpoch_toDigits (epoch : UInt64) : parseEpoch (Nat.toDigits 10 epoch.toNat) = some epoch := by
  unfold parseEpoch
  rw [Nat.ofDigitChars_ten_toDigits, if_pos epoch.toNat_lt, UInt64.ofNat_toNat]

theorem epochOf?_fileName : epochOf? session (fileName session' epoch) = some epoch' ↔
    session.text = session'.text ∧ epoch' = epoch := by
  rw [epochOf?_eq_some]
  constructor
  · rintro ⟨digits, -, hall, hparse, hname⟩
    obtain ⟨htext, rfl⟩ := split_name (fun _ => isDigit_of_mem_toDigits) hall hname
    rw [parseEpoch_toDigits] at hparse
    exact ⟨htext.symm, (Option.some.inj hparse).symm⟩
  · rintro ⟨htext, rfl⟩
    refine ⟨_, ?_, fun _ => isDigit_of_mem_toDigits, parseEpoch_toDigits epoch', ?_⟩
    · exact Nat.toDigits_ne_nil
    · rw [htext]
      rfl

theorem le_max_epoch (a b : UInt64) : a ≤ max a b ∧ b ≤ max a b := by
  change a ≤ (if a ≤ b then b else a) ∧ b ≤ (if a ≤ b then b else a)
  split_ifs with h
  · exact ⟨h, UInt64.le_refl _⟩
  · exact ⟨UInt64.le_refl _, (UInt64.le_total a b).resolve_left h⟩

theorem le_foldl_max {epochs : List UInt64} (start : UInt64) :
    start ≤ epochs.foldl max start ∧ ∀ e ∈ epochs, e ≤ epochs.foldl max start := by
  induction epochs generalizing start with
  | nil => exact ⟨UInt64.le_refl _, nofun⟩
  | cons e epochs ih =>
      obtain ⟨hstart, hall⟩ := ih (max start e)
      refine ⟨UInt64.le_trans (le_max_epoch start e).1 hstart, fun e' he' => ?_⟩
      rcases List.mem_cons.mp he' with rfl | he'
      · exact UInt64.le_trans (le_max_epoch start e').2 hstart
      · exact hall e' he'

theorem le_scanMaxEpoch {names : List FileName} (hname : fileName session epoch ∈ names) :
    epoch ≤ scanMaxEpoch session names :=
  (le_foldl_max 0).2 epoch (List.mem_filterMap.mpr ⟨_, hname, epochOf?_fileName.mpr ⟨rfl, rfl⟩⟩)

end Names

/-! ### Writers side by side -/

namespace Opening

variable {p p' : Pool (List FileName) openFile} {a : PoolAct SessionName DirQ DirA}
  {names : List FileName} {session : SessionName} {epoch : UInt64}

def Owns (f : Fiber openFile) (name : FileName) : Prop :=
  (⟨.createNew name, Created.file⟩ : Exchange DirQ DirA) ∈ f.asked

theorem openWithRetry_ensures (tries : Nat) (start : UInt64) (h : List (Exchange DirQ DirA)) :
    (openWithRetry session tries start).Ensures (fun _ _ => True) h fun r h' =>
      ∀ epoch, r = some epoch → (⟨.createNew (fileName session epoch), Created.file⟩ : Exchange DirQ DirA) ∈ h' := by
  induction tries generalizing start h with
  | zero => exact fun _ => nofun
  | succ tries ih =>
      refine ⟨trivial, fun answer => ?_⟩
      cases answer with
      | file =>
          rintro epoch ⟨⟩
          exact List.mem_append_right _ (List.mem_singleton_self _)
      | alreadyExists => exact ih _ _
      | failed => exact fun _ => nofun

theorem owns_of_opened {f : Fiber openFile} (hrest : f.rest = .pure (some epoch)) :
    Owns f (fileName f.key epoch) := by
  have hopen : (openFile f.key).Ensures (fun _ _ => True) [] fun r h' => ∀ epoch, r = some epoch →
      (⟨.createNew (fileName f.key epoch), Created.file⟩ : Exchange DirQ DirA) ∈ h' :=
    ⟨trivial, fun _ => openWithRetry_ensures _ _ _⟩
  have hpost := hopen.leads f.leads
  rw [hrest] at hpost
  exact hpost epoch rfl

theorem owns_step (h : Pool.Step directory p a p') {i : Nat} {f' : Fiber openFile}
    (hf' : p'.fibers[i]? = some f') {name : FileName} (howns : Owns f' name) :
    (∃ f, p.fibers[i]? = some f ∧ Owns f name) ∨ a = .answer i ⟨.createNew name, Created.file⟩ := by
  rcases h.fiber hf' with hsame | ⟨f, q, b, hf, rfl, -, hasked⟩ | hnew
  · exact .inl ⟨f', hsame, howns⟩
  · unfold Owns at howns
    rw [hasked, List.mem_append, List.mem_singleton] at howns
    rcases howns with hold | hnow
    · exact .inl ⟨f, hf, hold⟩
    · exact .inr (by rw [hnow])
  · unfold Owns at howns
    rw [hnew] at howns
    cases howns

theorem shared_step (h : Pool.Step directory p a p') : p.shared ⊆ p'.shared := by
  cases h with
  | start key => exact List.Subset.refl _
  | move hs => exact hs
  | @answer s i f q next b hf hq hs =>
      cases q with
      | scan => exact hs.2 ▸ List.Subset.refl _
      | createNew name =>
          cases b with
          | file => exact hs.2 ▸ List.subset_cons_self _ _
          | alreadyExists => exact hs.2 ▸ List.Subset.refl _
          | failed =>
              obtain rfl := hs
              exact List.Subset.refl _

theorem created_step {i : Nat} {name : FileName}
    (h : Pool.Step directory p (.answer i ⟨.createNew name, Created.file⟩) p') :
    name ∉ p.shared ∧ name ∈ p'.shared := by
  cases h with
  | answer b hf hq hs =>
      refine ⟨hs.1, ?_⟩
      rw [hs.2]
      exact List.mem_cons_self

/-- The files that writers have created are there, and each has one writer. -/
structure Sound (p : Pool (List FileName) openFile) : Prop where
  there : ∀ (i : Nat) f name, p.fibers[i]? = some f → Owns f name → name ∈ p.shared
  apart : ∀ (i j : Nat) f g name, p.fibers[i]? = some f → p.fibers[j]? = some g → Owns f name →
    Owns g name → i = j

theorem Sound.step (hp : Sound p) (h : Pool.Step directory p a p') : Sound p' where
  there i f' name hf' howns := by
    rcases owns_step h hf' howns with ⟨f, hf, hold⟩ | rfl
    · exact shared_step h (hp.there i f name hf hold)
    · exact (created_step h).2
  apart i j f' g' name hf' hg' hfowns hgowns := by
    rcases owns_step h hf' hfowns with ⟨f, hf, hfold⟩ | hfnow
    · rcases owns_step h hg' hgowns with ⟨g, hg, hgold⟩ | rfl
      · exact hp.apart i j f g name hf hg hfold hgold
      · exact absurd (hp.there i f name hf hfold) (created_step h).1
    · subst hfnow
      rcases owns_step h hg' hgowns with ⟨g, hg, hgold⟩ | hgnow
      · exact absurd (hp.there j g name hg hgold) (created_step h).1
      · cases hgnow
        rfl

theorem sound_of_reachable {files : List FileName} {p : Pool (List FileName) openFile}
    (hp : p.Reachable directory (fun _ _ => True) files) : Sound p :=
  hp.invariant ⟨nofun, nofun⟩ fun _ _ _ hsound h _ => hsound.step h

variable {es : List (Exchange DirQ DirA)} {epoch' : UInt64}

theorem le_saturatingSucc (epoch : UInt64) : epoch ≤ saturatingSucc epoch := by
  unfold saturatingSucc
  split_ifs with htop
  · exact UInt64.le_refl _
  · have hbound := epoch.toNat_lt
    have hne : epoch.toNat ≠ 2 ^ 64 - 1 := fun h => htop (UInt64.toNat_inj.mp h)
    rw [UInt64.le_iff_toNat_le, UInt64.toNat_add, UInt64.toNat_one]
    omega

theorem openWithRetry_le (tries : Nat) (start : UInt64) (h : List (Exchange DirQ DirA)) :
    (openWithRetry session tries start).Ensures (fun _ _ => True) h fun r _ =>
      ∀ epoch, r = some epoch → start ≤ epoch := by
  induction tries generalizing start h with
  | zero =>
      intro epoch h
      cases h
  | succ tries ih =>
      refine ⟨trivial, fun answer => ?_⟩
      cases answer with
      | file =>
          rintro epoch ⟨⟩
          exact UInt64.le_refl _
      | alreadyExists =>
          exact (ih _ _).mono fun r _ _ hle epoch hr => UInt64.le_trans (le_saturatingSucc start) (hle epoch hr)
      | failed =>
          intro epoch h
          cases h

theorem le_of_opened {f : Fiber openFile} (hrest : f.rest = .pure (some epoch))
    (hscan : f.asked = ⟨.scan, names⟩ :: es) : saturatingSucc (scanMaxEpoch f.key names) ≤ epoch := by
  have hopen : (openFile f.key).Ensures (fun _ _ => True) [] fun r h' => ∀ epoch, r = some epoch →
      ∀ names es, h' = ⟨.scan, names⟩ :: es → saturatingSucc (scanMaxEpoch f.key names) ≤ epoch := by
    refine ⟨trivial, fun names => (openWithRetry_le _ _ _).mono fun r h' hpre hle epoch hr names' es hh => ?_⟩
    obtain ⟨t, rfl⟩ := hpre
    cases hh
    exact hle epoch hr
  have hpost := hopen.leads f.leads
  rw [hrest] at hpost
  exact hpost epoch rfl names es hscan

/-- What a scan has shown is there, and its writer has not created it. -/
def Shown (p : Pool (List FileName) openFile) : Prop :=
  ∀ (i : Nat) f (names : List FileName) es, p.fibers[i]? = some f → f.asked = ⟨.scan, names⟩ :: es →
    names ⊆ p.shared ∧ ∀ name ∈ names, ¬ Owns f name

theorem Shown.step (hp : Shown p) (h : Pool.Step directory p a p') : Shown p' := by
  intro i f' names es hf' hscan
  rcases h.fiber hf' with hsame | ⟨f, q, b, hf, rfl, -, hasked⟩ | hnew
  · obtain ⟨hthere, hnot⟩ := hp i f' names es hsame hscan
    exact ⟨List.Subset.trans hthere (shared_step h), hnot⟩
  · cases hfirst : f.asked with
    | nil =>
        -- the scan itself
        rw [hasked, hfirst] at hscan
        obtain ⟨heq, -⟩ := List.cons.inj hscan
        cases heq
        cases h with
        | answer _ _ _ hs =>
            refine ⟨hs.2 ▸ hs.1, fun name _ howns => ?_⟩
            rw [Owns, hasked, hfirst, List.nil_append, List.mem_singleton] at howns
            cases howns
    | cons x xs =>
        rw [hasked, hfirst] at hscan
        obtain ⟨rfl, -⟩ := List.cons.inj hscan
        obtain ⟨hthere, hnot⟩ := hp i f names xs hf hfirst
        refine ⟨List.Subset.trans hthere (shared_step h), fun name hname howns => ?_⟩
        rw [Owns, hasked, List.mem_append, List.mem_singleton] at howns
        rcases howns with hold | hnow
        · exact hnot name hname hold
        · rw [← hnow] at h
          exact (created_step h).1 (hthere hname)
  · rw [hnew] at hscan
    cases hscan

/-- **Epochs go up.** Whatever the writers of a directory do, the epoch that one gets is above those of its
session whose files its scan has shown, also behind retries and where the numbers end. -/
theorem epoch_above_shown {files : List FileName} (hp : p.Reachable directory (fun _ _ => True) files)
    {i : Nat} {f : Fiber openFile} (hf : p.fibers[i]? = some f) (hscan : f.asked = ⟨.scan, names⟩ :: es)
    (hname : fileName f.key epoch ∈ names) (hrest : f.rest = .pure (some epoch')) : epoch < epoch' := by
  have hstart : Shown ⟨files, []⟩ := by
    intro i f names es hf
    rw [List.getElem?_nil] at hf
    cases hf
  have hshown : Shown p := hp.invariant hstart fun _ _ _ hshown h _ => hshown.step h
  have hle : epoch ≤ epoch' := UInt64.le_trans (le_scanMaxEpoch hname)
    (UInt64.le_trans (le_saturatingSucc _) (le_of_opened hrest hscan))
  rcases UInt64.lt_or_eq_of_le hle with hlt | rfl
  · exact hlt
  · exact absurd (owns_of_opened hrest) ((hshown i f names es hf hscan).2 _ hname)

end Opening

/-! ### The stream -/

open Opening

/-- **The shape of the event stream.** Whatever the threads of a writer do, its file is well formed, and
the record that closes the session is the last one exactly if each other call that saw the flag unset
gets the lock in time. No two writers on a directory write the same file. -/
theorem stream_wellFormed (session : SessionName) (epoch maxBytes : UInt64) (pid : UInt32)
    (pidStartMs : Option UInt64) (bootId : Option String) (tsMs markerTsMs : UInt64)
    (acts : List Threads.Act) :
    (let start := Threads.start session epoch maxBytes pid pidStartMs bootId tsMs markerTsMs
      let file := (acts.foldl Threads.step start).file
      WellFormed maxBytes (openingRecord session epoch pid pidStartMs bootId tsMs) file ∧
        (ClosedLast file ↔ Along Threads.step Threads.Timely start acts)) ∧
    ∀ (files : List FileName) (p : Pool (List FileName) openFile),
      p.Reachable directory (fun _ _ => True) files →
      ∀ (i j : Nat) (f g : Fiber openFile) (e e' : UInt64), i ≠ j →
        p.fibers[i]? = some f → p.fibers[j]? = some g →
        f.rest = .pure (some e) → g.rest = .pure (some e') → fileName f.key e ≠ fileName g.key e' := by
  constructor
  · obtain ⟨hsound, hlast⟩ := Threads.sound_start session epoch maxBytes pid pidStartMs bootId tsMs markerTsMs
    refine ⟨(hsound.run acts).wellFormed, ?_⟩
    rw [hsound.closedLast_run, and_iff_right hlast]
  · intro files p hp i j f g e e' hij hf hg hfrest hgrest hsame
    have howns := owns_of_opened hgrest
    rw [← hsame] at howns
    exact hij ((sound_of_reachable hp).apart i j f g _ hf hg (owns_of_opened hfrest) howns)

def g1 : SessionName := ⟨"g1".toList, by decide⟩

/-- Two writers of one session that have both seen an empty directory. -/
theorem stream_wellFormed_sameSession : ∃ f g : Fiber openFile, f.key = g1 ∧ g.key = g1 ∧
    Pool.Reachable directory (fun _ _ => True) [] ⟨[fileName g1 2, fileName g1 1], [f, g]⟩ ∧
      fileName g1 1 ≠ fileName g1 2 := by
  have hscan (i : Nat) : Pool.Serves directory i [] [⟨.scan, []⟩] [] :=
    ⟨_, ⟨List.Subset.refl _, rfl⟩, rfl⟩
  have hleads : (openFile g1).Leads [⟨.scan, []⟩] (openWithRetry g1 8 1) := .ask (A := DirA) (q := .scan) [] .here
  have hfirst : (openWithRetry g1 8 1).Leads [⟨.createNew (fileName g1 1), Created.file⟩] (.pure (some 1)) :=
    .ask (A := DirA) (q := .createNew _) Created.file .here
  have hsecond : (openWithRetry g1 8 1).Leads [⟨.createNew (fileName g1 1), Created.alreadyExists⟩,
      ⟨.createNew (fileName g1 2), Created.file⟩] (.pure (some 2)) :=
    .ask (A := DirA) (q := .createNew _) Created.alreadyExists
      (.ask (A := DirA) (q := .createNew _) Created.file .here)
  have hstart : Pool.Reachable directory (fun _ _ => True) [] ⟨[], [.new g1, .new g1]⟩ :=
    (Pool.Reachable.init.step (.start _) trivial).step (.start _) trivial
  obtain ⟨f, hfkey, -, hfrest, hp⟩ := hstart.serve (i := 0) rfl hleads (hscan 0) fun _ _ _ => trivial
  obtain ⟨g, hgkey, -, hgrest, hp⟩ := hp.serve (i := 1) rfl hleads (hscan 1) fun _ _ _ => trivial
  have hcreate : Pool.Serves directory 0 [] [⟨.createNew (fileName g1 1), Created.file⟩] [fileName g1 1] :=
    ⟨_, ⟨List.not_mem_nil, rfl⟩, rfl⟩
  have hretry : Pool.Serves directory 1 [fileName g1 1]
      [⟨.createNew (fileName g1 1), Created.alreadyExists⟩, ⟨.createNew (fileName g1 2), Created.file⟩]
      [fileName g1 2, fileName g1 1] :=
    ⟨_, ⟨List.mem_singleton_self _, rfl⟩, _, ⟨by decide, rfl⟩, rfl⟩
  obtain ⟨f', hfkey', -, hfrest', hp⟩ := hp.serve (i := 0) rfl (hfrest ▸ hfirst) hcreate fun _ _ _ => trivial
  obtain ⟨g', hgkey', -, hgrest', hp⟩ := hp.serve (i := 1) rfl (hgrest ▸ hsecond) hretry fun _ _ _ => trivial
  have hapart := (stream_wellFormed g1 1 0 0 none none 0 0 []).2 [] _ hp 0 1 f' g' 1 2 Nat.zero_ne_one rfl rfl hfrest' hgrest'
  rw [hfkey', hfkey, hgkey', hgkey] at hapart
  exact ⟨f', g', hfkey'.trans hfkey, hgkey'.trans hgkey, hp, hapart⟩

def lateHeartbeat : List Threads.Act :=
  [.call .heartbeat, .call (.closed .killed), .lock 1 0 0, .lock 0 0 0]

/-- A heartbeat that tested the flag in time and got the lock behind the close. -/
theorem lateHeartbeat_behind_close :
    let file := (lateHeartbeat.foldl Threads.step (.start g1 1 defaultMaxBytes 4242 none none 0 0)).file
    file.map DaemonEvent.isClosed = [false, true, false] ∧ ¬ ClosedLast file := by
  intro file
  have hshape : file.map DaemonEvent.isClosed = [false, true, false] := by decide
  refine ⟨hshape, fun hlast => ?_⟩
  obtain ⟨opened, rest, hfile, -, hrest⟩ := List.map_eq_cons_iff.mp hshape
  obtain ⟨closed, behind, rfl, hclosed, hbehind⟩ := List.map_eq_cons_iff.mp hrest
  rw [hlast [opened] closed behind hfile hclosed] at hbehind
  cases hbehind

/-- Epoch 1 stands in the directory, and epoch 2 comes in behind the scan. -/
theorem epoch_above_shown_retry : ∃ f : Fiber openFile, f.rest = .pure (some 3) ∧ (1 : UInt64) < 3 := by
  have hleads : (openFile g1).Leads [⟨.scan, [fileName g1 1]⟩, ⟨.createNew (fileName g1 2), Created.alreadyExists⟩,
      ⟨.createNew (fileName g1 3), Created.file⟩] (.pure (some 3)) :=
    .ask (A := DirA) (q := .scan) [fileName g1 1]
      (.ask (A := DirA) (q := .createNew (fileName g1 2)) Created.alreadyExists
        (.ask (A := DirA) (q := .createNew (fileName g1 3)) Created.file .here))
  have hserves : Pool.Serves directory 0 [fileName g1 2, fileName g1 1]
      [⟨.scan, [fileName g1 1]⟩, ⟨.createNew (fileName g1 2), Created.alreadyExists⟩,
        ⟨.createNew (fileName g1 3), Created.file⟩] [fileName g1 3, fileName g1 2, fileName g1 1] :=
    ⟨_, ⟨List.subset_cons_self _ _, rfl⟩, _, ⟨List.mem_cons_self, rfl⟩, _, ⟨by decide, rfl⟩, rfl⟩
  have hstart : Pool.Reachable directory (fun _ _ => True) [fileName g1 2, fileName g1 1]
      ⟨[fileName g1 2, fileName g1 1], [.new g1]⟩ := Pool.Reachable.init.step (.start _) trivial
  obtain ⟨f, hkey, hasked, hrest, hp⟩ := hstart.serve (i := 0) rfl hleads hserves fun _ _ _ => trivial
  refine ⟨f, hrest, epoch_above_shown hp (i := 0) rfl hasked ?_ hrest⟩
  rw [hkey]
  exact List.mem_singleton_self _

end QuorumDispatch.Events
