import QuorumDispatch.Acp.Resume
import QuorumDispatch.Kill.Process
import QuorumDispatch.Lib.Digits
import QuorumDispatch.Lib.Flags

/-!
The two resident daemons. Each is started with a list of words that its own reader gives back, and
is told from other processes by the line that these words make.
-/

namespace QuorumDispatch.Acp

open Lib
open Kill (splitWhitespace)

/-! ### The daemon of a bridge -/

inductive AdapterFlag where
  | listen
  | cwd
  | bridgeCmd
  | bridgeArg
  | loadSession
deriving DecidableEq, Repr

structure AdapterArgs where
  listen : Option String := none
  cwd : Option String := none
  bridgeCmd : Option String := none
  bridgeArgs : List String := []
  loadSession : Option String := none
deriving DecidableEq, Repr

structure AdapterOpts where
  listen : String
  cwd : String
  bridgeCmd : String
  bridgeArgs : List String
  loadSession : Option String
deriving DecidableEq, Repr

def bridgeBin : String := "claude-code-acp"

def adapterFlags : Flags AdapterFlag AdapterArgs where
  all := [.listen, .cwd, .bridgeCmd, .bridgeArg, .loadSession]
  name
    | .listen => "--listen"
    | .cwd => "--cwd"
    | .bridgeCmd => "--bridge-cmd"
    | .bridgeArg => "--bridge-arg"
    | .loadSession => "--load-session"
  put
    | .listen, s, value => .ok { s with listen := some value }
    | .cwd, s, value => .ok { s with cwd := some value }
    | .bridgeCmd, s, value => .ok { s with bridgeCmd := some value }
    | .bridgeArg, s, value => .ok { s with bridgeArgs := s.bridgeArgs ++ [value] }
    | .loadSession, s, value => .ok { s with loadSession := some value }

def parseAdapterArgs (args : List String) : Except String AdapterOpts :=
  (adapterFlags.parse adapterVerb args {}).bind fun s =>
    match s.listen, s.cwd with
    | none, _ => .error (adapterVerb ++ ": --listen is required")
    | some _, none => .error (adapterVerb ++ ": --cwd is required")
    | some listen, some cwd =>
        .ok {
          listen := listen
          cwd := cwd
          bridgeCmd := s.bridgeCmd.getD bridgeBin
          bridgeArgs := s.bridgeArgs
          loadSession := s.loadSession }

def buildAdapterArgv (exe endpoint cwd : String) (bridgeCmd : Option String) (bridgeArgs : List String)
    (loadSession : Option String) : List String :=
  [exe, adapterVerb, "--listen", endpoint, "--cwd", cwd] ++
    bridgeCmd.toList.flatMap (["--bridge-cmd", ·]) ++ bridgeArgs.flatMap (["--bridge-arg", ·]) ++
    loadSession.toList.flatMap (["--load-session", ·])

/-! ### The daemon of `pi` -/

inductive PiAdapterFlag where
  | listen
  | cwd
  | piBin
  | sessionDir
  | loadSession
  | registryDir
  | startedAt
deriving DecidableEq, Repr

structure PiAdapterArgs where
  listen : Option String := none
  cwd : Option String := none
  piBin : Option String := none
  sessionDir : Option String := none
  loadSession : Option String := none
  registryDir : Option String := none
  startedAt : Option Int64 := none
deriving DecidableEq, Repr

structure PiAdapterOpts where
  listen : String
  cwd : String
  piBin : Option String
  sessionDir : Option String
  loadSession : Option String
  registryDir : Option String
  startedAt : Option Int64
deriving DecidableEq, Repr

def piAdapterVerb : String := "pi-daemon"

/-- The text of a `ParseIntError`. -/
def parseIntError (cs : List Char) : String :=
  let digits := if cs.head? = some '-' ∨ cs.head? = some '+' then cs.tail else cs
  if cs = [] then "cannot parse integer from empty string"
  else if digits = [] ∨ digits.all Char.isDigit = false then "invalid digit found in string"
  else if cs.head? = some '-' then "number too small to fit in target type"
  else "number too large to fit in target type"

def piAdapterFlags : Flags PiAdapterFlag PiAdapterArgs where
  all := [.listen, .cwd, .piBin, .sessionDir, .loadSession, .registryDir, .startedAt]
  name
    | .listen => "--listen"
    | .cwd => "--cwd"
    | .piBin => "--pi-bin"
    | .sessionDir => "--session-dir"
    | .loadSession => "--load-session"
    | .registryDir => "--registry-dir"
    | .startedAt => "--started-at"
  put
    | .listen, s, value => .ok { s with listen := some value }
    | .cwd, s, value => .ok { s with cwd := some value }
    | .piBin, s, value => .ok { s with piBin := some value }
    | .sessionDir, s, value => .ok { s with sessionDir := some value }
    | .loadSession, s, value => .ok { s with loadSession := some value }
    | .registryDir, s, value => .ok { s with registryDir := some value }
    | .startedAt, s, value =>
        match parseI64 value.toList with
        | some stamp => .ok { s with startedAt := some (Int64.ofInt stamp) }
        | none => .error (piAdapterVerb ++ ": --started-at not an integer: " ++ parseIntError value.toList)

def parsePiAdapterArgs (args : List String) : Except String PiAdapterOpts :=
  (piAdapterFlags.parse piAdapterVerb args {}).bind fun s =>
    match s.listen, s.cwd with
    | none, _ => .error (piAdapterVerb ++ ": --listen is required")
    | some _, none => .error (piAdapterVerb ++ ": --cwd is required")
    | some listen, some cwd =>
        .ok {
          listen := listen
          cwd := cwd
          piBin := s.piBin
          sessionDir := s.sessionDir
          loadSession := s.loadSession
          registryDir := s.registryDir
          startedAt := s.startedAt }

def buildPiAdapterArgv (exe endpoint cwd : String) (piBin sessionDir registryDir : Option String)
    (startedAt : Option Int64) (loadSession : Option String) : List String :=
  [exe, piAdapterVerb, "--listen", endpoint, "--cwd", cwd] ++
    piBin.toList.flatMap (["--pi-bin", ·]) ++ sessionDir.toList.flatMap (["--session-dir", ·]) ++
    registryDir.toList.flatMap (["--registry-dir", ·]) ++
    startedAt.toList.flatMap (["--started-at", toString ·.toInt]) ++
    loadSession.toList.flatMap (["--load-session", ·])

/-- A `--listen` has the endpoint as its value. A `--listen` takes the next word, whatever it is. -/
def listensOn (ep : List Char) : List (List Char) → Bool
  | [] => false
  | t :: toks =>
      if t = "--listen".toList then
        match toks with
        | [] => false
        | value :: toks => if value = ep then true else listensOn ep toks
      else if t = "--listen=".toList ++ ep then true
      else listensOn ep toks

def cmdlineIsOurPiDaemon (cmdline endpoint : Option String) : Bool :=
  match cmdline with
  | none => false
  | some cmd =>
      containsText cmd piAdapterVerb &&
        match endpoint with
        | none | some "" => true
        | some ep => listensOn ep.toList (splitWhitespace cmd.toList)

/-! ### Argument lists come back -/

theorem adapterFlags_separate : adapterFlags.Separate where
  complete f := by cases f <;> decide
  injective f g h := by
    cases f <;> cases g <;> first | rfl | exact absurd h (by decide)
  bare f := by cases f <;> decide

theorem piAdapterFlags_separate : piAdapterFlags.Separate where
  complete f := by cases f <;> decide
  injective f g h := by
    cases f <;> cases g <;> first | rfl | exact absurd h (by decide)
  bare f := by cases f <;> decide

structure AdapterLaunch where
  exe : String
  port : Nat
  cwd : String
  bridgeCmd : Option String
  bridgeArgs : List String
  loadSession : Option String
deriving DecidableEq, Repr

structure PiAdapterLaunch where
  exe : String
  port : Nat
  cwd : String
  piBin : Option String
  sessionDir : Option String
  registryDir : Option String
  startedAt : Option Int64
  loadSession : Option String
deriving DecidableEq, Repr

/-- `ws://127.0.0.1:<port>`. -/
def endpointOf (port : Nat) : String := "ws://127.0.0.1:" ++ toString port

namespace AdapterLaunch

variable (l : AdapterLaunch)

def argv : List String :=
  buildAdapterArgv l.exe (endpointOf l.port) l.cwd l.bridgeCmd l.bridgeArgs l.loadSession

def opts : AdapterOpts where
  listen := endpointOf l.port
  cwd := l.cwd
  bridgeCmd := l.bridgeCmd.getD bridgeBin
  bridgeArgs := l.bridgeArgs
  loadSession := l.loadSession

def pairs : List (AdapterFlag × String) :=
  [(AdapterFlag.listen, endpointOf l.port), (AdapterFlag.cwd, l.cwd)] ++
    l.bridgeCmd.toList.map (AdapterFlag.bridgeCmd, ·) ++ l.bridgeArgs.map (AdapterFlag.bridgeArg, ·) ++
    l.loadSession.toList.map (AdapterFlag.loadSession, ·)

theorem drop_argv : l.argv.drop 2 = adapterFlags.spell l.pairs := by
  simp [argv, buildAdapterArgv, pairs, Flags.spell, adapterFlags, List.flatMap_map]

def reading (s : AdapterArgs) (pairs : List (AdapterFlag × String)) : Except String AdapterArgs :=
  pairs.foldlM (fun s p => adapterFlags.put p.1 s p.2) s

theorem reading_bridgeArgs (args : List String) (s : AdapterArgs) :
    reading s (args.map (.bridgeArg, ·)) = .ok { s with bridgeArgs := s.bridgeArgs ++ args } := by
  induction args generalizing s with
  | nil => rw [List.append_nil]; rfl
  | cons arg args ih =>
      change reading { s with bridgeArgs := s.bridgeArgs ++ [arg] } _ = _
      rw [ih, List.append_assoc, List.singleton_append]

theorem parseAdapterArgs_argv : parseAdapterArgs (l.argv.drop 2) = .ok l.opts := by
  have hfront : reading {} ([(AdapterFlag.listen, endpointOf l.port), (AdapterFlag.cwd, l.cwd)] ++
      l.bridgeCmd.toList.map (AdapterFlag.bridgeCmd, ·)) = .ok {
        listen := some (endpointOf l.port), cwd := some l.cwd, bridgeCmd := l.bridgeCmd } := by
    cases l.bridgeCmd <;> rfl
  have hback (s : AdapterArgs) : reading s (l.loadSession.toList.map (.loadSession, ·)) =
      .ok { s with loadSession := l.loadSession.or s.loadSession } := by
    cases l.loadSession <;> rfl
  have hread : reading {} l.pairs = .ok {
      listen := some (endpointOf l.port)
      cwd := some l.cwd
      bridgeCmd := l.bridgeCmd
      bridgeArgs := l.bridgeArgs
      loadSession := l.loadSession } := by
    unfold pairs
    rw [reading, List.foldlM_append, List.foldlM_append]
    change ((reading _ _ >>= (reading · _)) >>= (reading · _)) = _
    rw [hfront]
    change (reading _ _ >>= (reading · _)) = _
    rw [reading_bridgeArgs]
    change reading _ _ = _
    rw [hback]
    simp
  rw [parseAdapterArgs, drop_argv, adapterFlags_separate.parse_spell]
  change (reading _ _).bind _ = _
  rw [hread]
  rfl

end AdapterLaunch

namespace PiAdapterLaunch

variable (l : PiAdapterLaunch)

def argv : List String :=
  buildPiAdapterArgv l.exe (endpointOf l.port) l.cwd l.piBin l.sessionDir l.registryDir l.startedAt
    l.loadSession

def opts : PiAdapterOpts where
  listen := endpointOf l.port
  cwd := l.cwd
  piBin := l.piBin
  sessionDir := l.sessionDir
  loadSession := l.loadSession
  registryDir := l.registryDir
  startedAt := l.startedAt

def pairs : List (PiAdapterFlag × String) :=
  [(PiAdapterFlag.listen, endpointOf l.port), (PiAdapterFlag.cwd, l.cwd)] ++
    l.piBin.toList.map (PiAdapterFlag.piBin, ·) ++ l.sessionDir.toList.map (PiAdapterFlag.sessionDir, ·) ++
    l.registryDir.toList.map (PiAdapterFlag.registryDir, ·) ++
    l.startedAt.toList.map (fun ts => (PiAdapterFlag.startedAt, toString ts.toInt)) ++
    l.loadSession.toList.map (PiAdapterFlag.loadSession, ·)

theorem drop_argv : l.argv.drop 2 = piAdapterFlags.spell l.pairs := by
  simp [argv, buildPiAdapterArgv, pairs, Flags.spell, piAdapterFlags, List.flatMap_map]

def reading (s : PiAdapterArgs) (pairs : List (PiAdapterFlag × String)) : Except String PiAdapterArgs :=
  pairs.foldlM (fun s p => piAdapterFlags.put p.1 s p.2) s

theorem inI64_toInt (ts : Int64) : InI64 ts.toInt := ⟨ts.le_toInt, ts.toInt_lt⟩

/-- A stamp comes back as the number that it is. -/
theorem reading_startedAt (s : PiAdapterArgs) (startedAt : Option Int64) :
    reading s (startedAt.toList.map fun ts => (.startedAt, toString ts.toInt)) =
      .ok { s with startedAt := startedAt.or s.startedAt } := by
  cases startedAt with
  | none => rfl
  | some ts =>
      change (piAdapterFlags.put .startedAt s (toString ts.toInt) >>= pure) = _
      simp only [piAdapterFlags, parseI64_toString (inI64_toInt ts), Int64.ofInt_toInt]
      rfl

theorem parsePiAdapterArgs_argv : parsePiAdapterArgs (l.argv.drop 2) = .ok l.opts := by
  have hfront : reading {} ([(PiAdapterFlag.listen, endpointOf l.port), (PiAdapterFlag.cwd, l.cwd)] ++
      l.piBin.toList.map (PiAdapterFlag.piBin, ·)) = .ok {
        listen := some (endpointOf l.port), cwd := some l.cwd, piBin := l.piBin } := by
    cases l.piBin <;> rfl
  have hsession (s : PiAdapterArgs) : reading s (l.sessionDir.toList.map (.sessionDir, ·)) =
      .ok { s with sessionDir := l.sessionDir.or s.sessionDir } := by
    cases l.sessionDir <;> rfl
  have hregistry (s : PiAdapterArgs) : reading s (l.registryDir.toList.map (.registryDir, ·)) =
      .ok { s with registryDir := l.registryDir.or s.registryDir } := by
    cases l.registryDir <;> rfl
  have hload (s : PiAdapterArgs) : reading s (l.loadSession.toList.map (.loadSession, ·)) =
      .ok { s with loadSession := l.loadSession.or s.loadSession } := by
    cases l.loadSession <;> rfl
  have hread : reading {} l.pairs = .ok {
      listen := some (endpointOf l.port)
      cwd := some l.cwd
      piBin := l.piBin
      sessionDir := l.sessionDir
      loadSession := l.loadSession
      registryDir := l.registryDir
      startedAt := l.startedAt } := by
    unfold pairs
    rw [reading, List.foldlM_append, List.foldlM_append, List.foldlM_append, List.foldlM_append]
    change ((((reading _ _ >>= (reading · _)) >>= (reading · _)) >>= (reading · _)) >>= (reading · _)) = _
    rw [hfront]
    change (((reading _ _ >>= (reading · _)) >>= (reading · _)) >>= (reading · _)) = _
    rw [hsession]
    change ((reading _ _ >>= (reading · _)) >>= (reading · _)) = _
    rw [hregistry]
    change (reading _ _ >>= (reading · _)) = _
    rw [reading_startedAt]
    change reading _ _ = _
    rw [hload]
    simp
  rw [parsePiAdapterArgs, drop_argv, piAdapterFlags_separate.parse_spell]
  change (reading _ _).bind _ = _
  rw [hread]
  rfl

end PiAdapterLaunch

/-! ### Which daemon a line is of -/

def flattened (argv : List String) : String := String.ofList (List.intercalate [' '] (argv.map String.toList))

def Quiet (word : String) : Prop :=
  word.toList.any isWhitespace = false ∧ ¬"ws://".toList <:+: word.toList

instance (word : String) : Decidable (Quiet word) := inferInstanceAs (Decidable (_ ∧ _))

def AdapterLaunch.Quiet (l : AdapterLaunch) : Prop := ∀ w ∈ l.argv.eraseIdx 3, Acp.Quiet w

def PiAdapterLaunch.Quiet (l : PiAdapterLaunch) : Prop := ∀ w ∈ l.argv.eraseIdx 3, Acp.Quiet w

theorem toList_endpointOf (port : Nat) :
    (endpointOf port).toList = 'w' :: ("s://127.0.0.1:".toList ++ (toString port).toList) := by
  change ("ws://127.0.0.1:" ++ toString port).toList = _
  rw [String.toList_append]
  rfl

theorem isDigit_of_mem_toString {port : Nat} {c : Char} (h : c ∈ (toString port).toList) : c.isDigit := by
  rw [Nat.toString_eq_repr, toList_repr] at h
  exact Nat.isDigit_of_mem_toDigits (by decide) (by decide) h

/-- An endpoint is in another one just if its port begins the port of the other. -/
theorem endpointOf_infix {r e : Nat} :
    (endpointOf r).toList <:+: (endpointOf e).toList ↔ (toString r).toList <+: (toString e).toList := by
  have hw : 'w' ∉ "s://127.0.0.1:".toList ++ (toString e).toList := by
    rw [List.mem_append, not_or]
    exact ⟨by decide, fun h => absurd (isDigit_of_mem_toString h) (by decide)⟩
  rw [toList_endpointOf, toList_endpointOf, infix_cons_iff_of_notMem hw, List.prefix_append_right_inj]

theorem endpointOf_injective {r e : Nat} (h : endpointOf r = endpointOf e) : r = e :=
  Nat.repr_injective ((String.append_right_inj "ws://127.0.0.1:").mp h)

theorem ws_infix_endpointOf (port : Nat) : "ws://".toList <:+: (endpointOf port).toList := by
  rw [toList_endpointOf]
  exact ⟨[], "127.0.0.1:".toList ++ (toString port).toList, rfl⟩

theorem isWhitespace_of_mem_endpointOf {port : Nat} {c : Char} (h : c ∈ (endpointOf port).toList) :
    isWhitespace c = false := by
  have hfixed : ('w' :: "s://127.0.0.1:".toList).any isWhitespace = false := by decide
  rw [toList_endpointOf, ← List.cons_append] at h
  rcases List.mem_append.mp h with hmem | hmem
  · exact Bool.not_eq_true _ ▸ List.any_eq_false.mp hfixed c hmem
  · have hdigit := isDigit_of_mem_toString hmem
    have hrange : 48 ≤ c.toNat ∧ c.toNat ≤ 57 := by
      simpa [Char.isDigit, UInt32.le_iff_toNat_le] using hdigit
    simp [isWhitespace]
    omega

theorem endpointOf_ne_empty (port : Nat) : endpointOf port ≠ "" := by
  intro h
  have hlist := congrArg String.toList h
  rw [toList_endpointOf] at hlist
  cases hlist

theorem containsText_flattened {argv : List String} {part : String} (hne : part ≠ "")
    (hblank : ' ' ∉ part.toList) :
    containsText (flattened argv) part = true ↔ ∃ w ∈ argv, part.toList <:+: w.toList := by
  have hne' : part.toList ≠ [] := by simpa using hne
  rw [containsText, decide_eq_true_iff, flattened, String.toList_ofList, infix_intercalate hne' hblank]
  simp

theorem filter_cons_of_ne_nil {w : List Char} (h : w ≠ []) {words : List (List Char)} :
    (w :: words).filter (· ≠ []) = w :: words.filter (· ≠ []) :=
  List.filter_cons_of_pos (decide_eq_true h)

/-- The words of a line come apart again. -/
theorem splitWhitespace_intercalate {words : List (List Char)}
    (h : ∀ w ∈ words, ∀ c ∈ w, isWhitespace c = false) :
    splitWhitespace (List.intercalate [' '] words) = words.filter (· ≠ []) := by
  induction words with
  | nil => rfl
  | cons w words ih =>
      have hw := h w List.mem_cons_self
      have ih' := ih fun v hv => h v (List.mem_cons_of_mem _ hv)
      rcases words with _ | ⟨w', words⟩
      · rw [List.intercalate_singleton, splitWhitespace, List.splitOnP_eq_singleton hw]
      · rw [splitWhitespace] at ih'
        rw [List.intercalate_cons_cons, List.append_assoc, List.singleton_append, splitWhitespace,
          List.splitOnP_append_cons_of_forall_mem hw _ (by decide), List.filter_cons, ih']
        simp only [List.filter_cons]

/-! ### The two rules -/

section Identity

variable {exe verb : String} {rest : List String} {port recorded : Nat}

def listening (exe verb : String) (port : Nat) (rest : List String) : List String :=
  exe :: verb :: "--listen" :: endpointOf port :: rest

theorem verb_infix : ∃ w ∈ listening exe verb port rest, verb.toList <:+: w.toList :=
  ⟨verb, List.mem_cons_of_mem _ List.mem_cons_self, List.infix_refl _⟩

theorem blank_notMem_endpointOf (port : Nat) : ' ' ∉ (endpointOf port).toList := by
  intro h
  exact absurd (isWhitespace_of_mem_endpointOf h) (by decide)

theorem mem_listening {w : String} :
    w ∈ listening exe verb port rest ↔ w = endpointOf port ∨ w ∈ (listening exe verb port rest).eraseIdx 3 := by
  simp only [listening, List.eraseIdx_cons_succ, List.eraseIdx_cons_zero, List.mem_cons]
  constructor
  · rintro (h | h | h | h | h) <;> simp [h]
  · rintro (h | h | h | h | h) <;> simp [h]

theorem cmdlineIsOurAcpDaemon_iff
    (hquiet : ∀ w ∈ (listening exe adapterVerb port rest).eraseIdx 3, Acp.Quiet w) :
    cmdlineIsOurAcpDaemon (some (flattened (listening exe adapterVerb port rest)))
        (some (endpointOf recorded)) = true ↔
      (toString recorded).toList <+: (toString port).toList := by
  have hverb : containsText (flattened (listening exe adapterVerb port rest)) adapterVerb = true :=
    (containsText_flattened (by decide) (by decide)).mpr verb_infix
  have hmatch : cmdlineIsOurAcpDaemon (some (flattened (listening exe adapterVerb port rest)))
      (some (endpointOf recorded)) =
      containsText (flattened (listening exe adapterVerb port rest)) (endpointOf recorded) := by
    rw [cmdlineIsOurAcpDaemon, hverb, Bool.true_and]
    exact endpointOf_ne_empty _
  rw [hmatch, containsText_flattened (endpointOf_ne_empty _) (blank_notMem_endpointOf _), ← endpointOf_infix]
  constructor
  · rintro ⟨w, hw, hinfix⟩
    rcases mem_listening.mp hw with rfl | hother
    · exact hinfix
    · exact absurd ((ws_infix_endpointOf recorded).trans hinfix) (hquiet w hother).2
  · exact fun h => ⟨_, mem_listening.mpr (.inl rfl), h⟩

/-- Only a word that is the endpoint, or that is a flag with it, makes a daemon listen on it. -/
theorem mem_of_listensOn {ep : List Char} {toks : List (List Char)} (h : listensOn ep toks = true) :
    ep ∈ toks ∨ "--listen=".toList ++ ep ∈ toks := by
  fun_induction listensOn ep toks with
  | case1 => cases h
  | case2 => cases h
  | case3 => exact .inl (List.mem_cons_of_mem _ List.mem_cons_self)
  | case4 value toks _ ih =>
      exact (ih h).imp (fun hm => List.mem_cons_of_mem _ (List.mem_cons_of_mem _ hm))
        fun hm => List.mem_cons_of_mem _ (List.mem_cons_of_mem _ hm)
  | case5 => exact .inr List.mem_cons_self
  | case6 t toks _ _ ih => exact (ih h).imp (List.mem_cons_of_mem _) (List.mem_cons_of_mem _)

/-- One word in front of a flag and its value does not hide them, unless it is the flag. -/
theorem listensOn_pair {ep verb : List Char} (hverb : verb ≠ "--listen".toList) (toks : List (List Char)) :
    listensOn ep (verb :: "--listen".toList :: ep :: toks) = true := by
  have hpair : listensOn ep ("--listen".toList :: ep :: toks) = true := by simp [listensOn]
  rw [listensOn, if_neg hverb]
  split
  · rfl
  · exact hpair

theorem listensOn_second {ep first verb : List Char} (hverb : verb ≠ "--listen".toList)
    (toks : List (List Char)) : listensOn ep (first :: verb :: "--listen".toList :: ep :: toks) = true := by
  have hpair : listensOn ep ("--listen".toList :: ep :: toks) = true := by simp [listensOn]
  rw [listensOn]
  split
  · split
    · rfl
    · exact hpair
  · split
    · rfl
    · exact listensOn_pair hverb toks

theorem cmdlineIsOurPiDaemon_iff
    (hquiet : ∀ w ∈ (listening exe piAdapterVerb port rest).eraseIdx 3, Acp.Quiet w) :
    cmdlineIsOurPiDaemon (some (flattened (listening exe piAdapterVerb port rest)))
        (some (endpointOf recorded)) = true ↔ recorded = port := by
  have hverb : containsText (flattened (listening exe piAdapterVerb port rest)) piAdapterVerb = true :=
    (containsText_flattened (by decide) (by decide)).mpr verb_infix
  have hplain : ∀ w ∈ (listening exe piAdapterVerb port rest).map String.toList,
      ∀ c ∈ w, isWhitespace c = false := by
    intro w hw c hc
    obtain ⟨word, hword, rfl⟩ := List.mem_map.mp hw
    rcases mem_listening.mp hword with rfl | hother
    · exact isWhitespace_of_mem_endpointOf hc
    · exact Bool.not_eq_true _ ▸ List.any_eq_false.mp (hquiet word hother).1 c hc
  have hmatch : cmdlineIsOurPiDaemon (some (flattened (listening exe piAdapterVerb port rest)))
      (some (endpointOf recorded)) = listensOn (endpointOf recorded).toList
        (((listening exe piAdapterVerb port rest).map String.toList).filter (· ≠ [])) := by
    rw [cmdlineIsOurPiDaemon, hverb, Bool.true_and, flattened, String.toList_ofList,
      splitWhitespace_intercalate hplain]
    exact endpointOf_ne_empty _
  rw [hmatch]
  constructor
  · intro h
    have hword : ∃ w ∈ listening exe piAdapterVerb port rest,
        (endpointOf recorded).toList <:+: w.toList ∧ (w = endpointOf port → recorded = port) := by
      rcases mem_of_listensOn h with hmem | hmem
      · obtain ⟨w, hw, heq⟩ := List.mem_map.mp (List.mem_filter.mp hmem).1
        refine ⟨w, hw, heq ▸ List.infix_refl _, ?_⟩
        rintro rfl
        exact (endpointOf_injective (String.toList_inj.mp heq)).symm
      · obtain ⟨w, hw, heq⟩ := List.mem_map.mp (List.mem_filter.mp hmem).1
        refine ⟨w, hw, heq ▸ (List.suffix_append _ _).isInfix, ?_⟩
        rintro rfl
        rw [toList_endpointOf] at heq
        exact absurd (List.cons.inj heq).1 (by decide)
    obtain ⟨w, hw, hinfix, heq⟩ := hword
    rcases mem_listening.mp hw with rfl | hother
    · exact heq rfl
    · exact absurd ((ws_infix_endpointOf recorded).trans hinfix) (hquiet w hother).2
  · rintro rfl
    obtain ⟨hverb', hne, hlisten⟩ : piAdapterVerb.toList ≠ "--listen".toList ∧
        piAdapterVerb.toList ≠ [] ∧ "--listen".toList ≠ [] := by decide
    have hep : (endpointOf recorded).toList ≠ [] := by
      rw [toList_endpointOf]
      exact List.cons_ne_nil _ _
    obtain ⟨toks, htoks⟩ : ∃ toks,
        ((listening exe piAdapterVerb recorded rest).map String.toList).filter (· ≠ []) =
          (if exe.toList ≠ [] then [exe.toList] else []) ++
            piAdapterVerb.toList :: "--listen".toList :: (endpointOf recorded).toList :: toks := by
      refine ⟨(rest.map String.toList).filter (· ≠ []), ?_⟩
      rw [listening, List.map_cons, List.map_cons, List.map_cons, List.map_cons, List.filter_cons,
        filter_cons_of_ne_nil hne, filter_cons_of_ne_nil hlisten, filter_cons_of_ne_nil hep]
      by_cases hexe : exe.toList = []
      · simp [hexe]
      · simp [hexe]
    rw [htoks]
    split
    · exact listensOn_second hverb' toks
    · exact listensOn_pair hverb' toks

end Identity

def NestedPort (recorded port : Nat) : Prop :=
  (toString recorded).toList <+: (toString port).toList ∧ recorded ≠ port

instance (recorded port : Nat) : Decidable (NestedPort recorded port) := inferInstanceAs (Decidable (_ ∧ _))

/-- Both daemons read back what they were started with. `pi` tells its own by the whole endpoint;
the other one, which looks for the endpoint anywhere in the line, does so just where no recorded
port is nested in that of the line. -/
theorem residentIdentity (acp : AdapterLaunch) (pi : PiAdapterLaunch) (recorded : Nat) :
    (parseAdapterArgs (acp.argv.drop 2) = .ok acp.opts ∧
      parsePiAdapterArgs (pi.argv.drop 2) = .ok pi.opts ∧
      (acp.Quiet → (cmdlineIsOurAcpDaemon (some (flattened acp.argv)) (some (endpointOf recorded)) = true ↔
        recorded = acp.port)) ∧
      (pi.Quiet → (cmdlineIsOurPiDaemon (some (flattened pi.argv)) (some (endpointOf recorded)) = true ↔
        recorded = pi.port))) ↔
    (acp.Quiet → ¬NestedPort recorded acp.port) := by
  constructor
  · rintro ⟨_, _, hacp, _⟩ hquiet ⟨hstart, hne⟩
    exact hne ((hacp hquiet).mp ((cmdlineIsOurAcpDaemon_iff hquiet).mpr hstart))
  · intro h
    refine ⟨acp.parseAdapterArgs_argv, pi.parsePiAdapterArgs_argv, ?_, fun hquiet =>
      cmdlineIsOurPiDaemon_iff hquiet⟩
    intro hquiet
    refine (cmdlineIsOurAcpDaemon_iff hquiet).trans ⟨fun hstart => ?_, ?_⟩
    · exact not_not.mp fun hne => h hquiet ⟨hstart, hne⟩
    · rintro rfl
      exact List.prefix_refl _

/-- A row that recorded port 900 takes the daemon on port 9001 for its own. -/
theorem nested_port_adopted :
    ¬∀ (l : AdapterLaunch) (recorded : Nat), l.Quiet →
      (cmdlineIsOurAcpDaemon (some (flattened l.argv)) (some (endpointOf recorded)) = true ↔
        recorded = l.port) := by
  intro h
  let l : AdapterLaunch := ⟨"/usr/bin/qd", 9001, "/work", none, [], none⟩
  obtain ⟨hquiet, hnested⟩ : (∀ w ∈ l.argv.eraseIdx 3, Acp.Quiet w) ∧ NestedPort 900 9001 := by
    decide
  exact hnested.2 ((h _ 900 hquiet).mp ((cmdlineIsOurAcpDaemon_iff hquiet).mpr hnested.1))

end QuorumDispatch.Acp
