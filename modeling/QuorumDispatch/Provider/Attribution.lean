import Mathlib.Data.List.Infix

/-!
The sender envelope of the lanes that carry text only. It is written around the message in
one place, and `inner_body` is the inverse: it answers for the envelopes that `attribute`
writes and for nothing else.
-/

namespace QuorumDispatch.Provider

/-! ### Pieces of a text -/

/-- `strip_prefix`. -/
def dropFront (pat s : List Char) : Option (List Char) :=
  if pat <+: s then some (s.drop pat.length) else none

/-- `strip_suffix`. -/
def dropBack (pat s : List Char) : Option (List Char) :=
  if pat <:+ s then some (s.take (s.length - pat.length)) else none

/-- `split_once`: what stands before the first occurrence, and what stands behind it. -/
def splitOnce (pat : List Char) : List Char → Option (List Char × List Char)
  | [] => if pat = [] then some ([], []) else none
  | c :: s =>
      if pat <+: c :: s then some ([], (c :: s).drop pat.length)
      else (splitOnce pat s).map fun (before, after) => (c :: before, after)

theorem dropFront_eq_some {pat s rest : List Char} :
    dropFront pat s = some rest ↔ s = pat ++ rest := by
  unfold dropFront
  constructor
  · intro h
    split_ifs at h with hpat
    rw [← Option.some.inj h]
    exact List.prefix_iff_eq_append.mp hpat |>.symm
  · rintro rfl
    rw [if_pos (List.prefix_append ..), List.drop_left]

theorem dropBack_eq_some {pat s rest : List Char} :
    dropBack pat s = some rest ↔ s = rest ++ pat := by
  unfold dropBack
  constructor
  · intro h
    split_ifs at h with hpat
    obtain ⟨front, rfl⟩ := hpat
    rw [List.length_append, Nat.add_sub_cancel, List.take_left] at h
    rw [Option.some.inj h]
  · rintro rfl
    rw [if_pos (List.suffix_append ..), List.length_append, Nat.add_sub_cancel, List.take_left]

theorem eq_append_of_splitOnce {pat s before after : List Char}
    (h : splitOnce pat s = some (before, after)) : s = before ++ pat ++ after := by
  induction s generalizing before with
  | nil =>
      rw [splitOnce] at h
      split_ifs at h with hpat
      cases h
      simp [hpat]
  | cons c s ih =>
      rw [splitOnce] at h
      split_ifs at h with hpat
      · cases h
        exact (List.prefix_iff_eq_append.mp hpat).symm
      · obtain ⟨⟨b, a⟩, hrest, hpair⟩ := Option.map_eq_some_iff.mp h
        cases hpair
        rw [ih hrest]
        rfl

theorem splitOnce_append {c : Char} (pat : List Char) {before : List Char} (h : c ∉ before)
    (after : List Char) :
    splitOnce (c :: pat) (before ++ (c :: pat) ++ after) = some (before, after) := by
  induction before with
  | nil =>
      have hpat : c :: pat <+: c :: (pat ++ after) := List.prefix_append (c :: pat) after
      rw [List.nil_append, List.cons_append, splitOnce, if_pos hpat]
      simp
  | cons b before ih =>
      obtain ⟨hb, hbefore⟩ := not_or.mp (mt List.mem_cons.mpr h)
      have hnot : ¬ c :: pat <+: b :: (before ++ (c :: pat) ++ after) :=
        fun hpre => hb (List.cons_prefix_cons.mp hpre).1
      rw [List.cons_append, List.cons_append, splitOnce, if_neg hnot, ih hbefore]
      rfl

/-! ### The envelope -/

def cliSender : List Char := "cli".toList

def headerOpen : List Char := "<channel source=\"qd\" from_session=\"".toList

def headerClose : List Char := "\">\n".toList

def footer : List Char := "\n</channel>\n".toList

/-- `char::is_control`. -/
def isControl (c : Char) : Bool := c.toNat < 0x20 || (0x7f ≤ c.toNat && c.toNat ≤ 0x9f)

def sanitizeSender (sender : List Char) : List Char :=
  sender.filter fun c => !isControl c && c != '"' && c != '<' && c != '>'

def isAddressable (sender : List Char) : Bool :=
  !(sanitizeSender sender).isEmpty && sanitizeSender sender != cliSender

def replyLine (sender : List Char) : List Char :=
  "[reply: qd send:relay ".toList ++ sender ++ " \"<your reply>\" | peers: qd ls]".toList

/-- `attribute`: the text on the wire. -/
def attributed (message sender : List Char) : List Char :=
  if isAddressable sender then
    let sender := sanitizeSender sender
    headerOpen ++ sender ++ headerClose ++ message ++ footer ++ replyLine sender
  else message

def innerBody (text : List Char) : Option (List Char) := do
  let rest ← dropFront headerOpen text
  let (sender, rest) ← splitOnce headerClose rest
  if sender != sanitizeSender sender || !isAddressable sender then none
  else dropBack (footer ++ replyLine sender) rest

@[simp] theorem sanitizeSender_idem (sender : List Char) :
    sanitizeSender (sanitizeSender sender) = sanitizeSender sender :=
  by simp [sanitizeSender]

@[simp] theorem isAddressable_sanitizeSender (sender : List Char) :
    isAddressable (sanitizeSender sender) = isAddressable sender := by
  simp only [isAddressable, sanitizeSender_idem]

theorem quote_notMem_sanitizeSender (sender : List Char) : '"' ∉ sanitizeSender sender := by
  intro h
  simp [sanitizeSender] at h

theorem attributed_of_not_addressable {sender : List Char} (h : isAddressable sender = false)
    (message : List Char) : attributed message sender = message := by
  rw [attributed, h]
  rfl

/-- **`inner_body` is the inverse of `attribute`, on its image and nowhere else.** -/
theorem innerBody_eq_some {text body : List Char} :
    innerBody text = some body ↔
      ∃ sender, isAddressable sender = true ∧ text = attributed body sender := by
  constructor
  · intro h
    obtain ⟨rest, hrest, h⟩ := Option.bind_eq_some_iff.mp h
    obtain ⟨⟨sender, rest'⟩, hsplit, h⟩ := Option.bind_eq_some_iff.mp h
    simp only at h
    split_ifs at h with hbad
    simp only [Bool.or_eq_true, bne_iff_ne, ne_eq, Bool.not_eq_true', not_or, not_not,
      Bool.not_eq_false] at hbad
    obtain ⟨hsane, haddr⟩ := hbad
    refine ⟨sender, haddr, ?_⟩
    rw [dropFront_eq_some.mp hrest, eq_append_of_splitOnce hsplit, dropBack_eq_some.mp h, attributed,
      if_pos haddr, ← hsane]
    simp only [List.append_assoc]
  · rintro ⟨sender, haddr, rfl⟩
    have hsplit := splitOnce_append ['>', '\n'] (quote_notMem_sanitizeSender sender)
      (body ++ (footer ++ replyLine (sanitizeSender sender)))
    have hwire : attributed body sender = headerOpen ++ (sanitizeSender sender ++ headerClose ++
        (body ++ (footer ++ replyLine (sanitizeSender sender)))) := by
      rw [attributed, if_pos haddr]
      simp only [List.append_assoc]
    change (dropFront headerOpen _).bind _ = _
    rw [dropFront_eq_some.mpr hwire]
    change (splitOnce headerClose _).bind _ = _
    rw [show headerClose = '"' :: ['>', '\n'] from rfl, hsplit]
    simp only [Option.bind_some, sanitizeSender_idem, isAddressable_sanitizeSender, haddr,
      bne_self_eq_false, Bool.not_true, Bool.or_self, Bool.false_eq_true, if_false]
    exact dropBack_eq_some.mpr rfl

theorem innerBody_attributed {sender : List Char} (h : isAddressable sender = true)
    (message : List Char) : innerBody (attributed message sender) = some message :=
  innerBody_eq_some.mpr ⟨sender, h, rfl⟩

end QuorumDispatch.Provider
