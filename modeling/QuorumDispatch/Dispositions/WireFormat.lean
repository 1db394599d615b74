import Mathlib.Data.List.Nodup
import QuorumDispatch.Dispositions.Ledger

/-!
Which rows the reader takes for an event: exactly the objects that carry the
entries of one variant, each once and in any order. The key loop is described
by the raw value that every slot was filled from; the checks behind it then
compare these with the entries of the event.
-/

namespace QuorumDispatch.Dispositions

open Lib

/-! ### The key loop -/

inductive Field where
  | v
  | correlationId
  | event
  | createdAt
  | cls
  | bodyDigest
deriving DecidableEq, Repr

namespace Field

def name : Field → String
  | v => "v"
  | correlationId => "correlation_id"
  | event => "event"
  | createdAt => "created_at"
  | cls => "class"
  | bodyDigest => "body_digest"

def Reads (j : Json) : Field → Bool
  | v => j.asU32.isSome
  | correlationId | cls | bodyDigest => j.asStr.isSome
  | event => (EventKind.ofJson j).isSome
  | createdAt => j.asI64.isSome

theorem name_inj {f g : Field} (h : f.name = g.name) : f = g := by
  cases f <;> cases g <;> first | rfl | exact absurd h (by decide)

end Field

def Slots.of (raw : Field → Option Json) : Slots where
  v := (raw .v).bind Json.asU32
  correlationId := (raw .correlationId).bind Json.asStr
  event := (raw .event).bind EventKind.ofJson
  createdAt := (raw .createdAt).bind Json.asI64
  cls := (raw .cls).bind Json.asStr
  bodyDigest := (raw .bodyDigest).bind Json.asStr

theorem setOnce_none {α : Type} (value : Option α) (field : String) :
    setOnce none value field = if value.isSome then .ok value else .error .invalidType := by
  cases value <;> rfl

theorem setOnce_some {α : Type} (a : α) (value : Option α) (field : String) :
    setOnce (some a) value field = .error (.duplicateField field) := rfl

section KeyLoop

variable {raw : Field → Option Json}

/-- One turn of the loop at a known key: its slot was empty and the value has
the field's type. -/
theorem visitEntry_field (hraw : ∀ f j, raw f = some j → f.Reads j = true) (f : Field) (j : Json) :
    visitEntry (.of raw) (f.name, j) =
      if (raw f).isSome then .error (.duplicateField f.name)
      else if f.Reads j then .ok (.of (Function.update raw f (some j)))
      else .error .invalidType := by
  cases hf : raw f with
  | some k =>
      have hread := hraw f k hf
      cases f <;>
      · obtain ⟨a, ha⟩ := Option.isSome_iff_exists.mp hread
        simp [visitEntry, Field.name, Slots.of, hf, ha, setOnce_some, bind, Except.bind]
  | none =>
      cases f <;>
      · simp only [visitEntry, Field.name, Slots.of, hf, Option.bind_none, setOnce_none, Field.Reads,
          Option.isSome_none, Bool.false_eq_true, if_false]
        split <;> simp_all [bind, Except.bind, pure, Except.pure, Function.update]

theorem visitEntry_known {s s' : Slots} {entry : String × Json} (h : visitEntry s entry = .ok s') :
    ∃ f : Field, entry.1 = f.name := by
  unfold visitEntry at h
  split at h
  · exact ⟨.v, by assumption⟩
  · exact ⟨.correlationId, by assumption⟩
  · exact ⟨.event, by assumption⟩
  · exact ⟨.createdAt, by assumption⟩
  · exact ⟨.cls, by assumption⟩
  · exact ⟨.bodyDigest, by assumption⟩
  · cases h

/-- The whole loop: no key twice, every key known and still free, every value of
its field's type; the slots then hold the first value under each name. -/
theorem foldlM_visitEntry (entries : List (String × Json)) {s : Slots}
    (hraw : ∀ f j, raw f = some j → f.Reads j = true) :
    entries.foldlM visitEntry (.of raw) = .ok s ↔
      (entries.map Prod.fst).Nodup ∧
        (∀ entry ∈ entries, ∃ f : Field, entry.1 = f.name ∧ f.Reads entry.2 = true ∧ raw f = none) ∧
        s = .of fun f => (raw f).or (entries.lookup f.name) := by
  induction entries generalizing raw with
  | nil =>
      have hslots : (fun f => (raw f).or (List.lookup f.name [])) = raw := by
        funext f
        exact Option.or_none
      rw [hslots]
      simpa [pure, Except.pure] using eq_comm
  | cons entry rest ih =>
      rw [List.foldlM_cons]
      -- the first key decides whether the loop goes on at all
      by_cases hknown : ∃ f : Field, entry.1 = f.name ∧ f.Reads entry.2 = true ∧ raw f = none
      · obtain ⟨f, hname, hreads, hfree⟩ := hknown
        obtain ⟨key, j⟩ := entry
        obtain rfl : key = f.name := hname
        have hupdate : ∀ g k, Function.update raw f (some j) g = some k → g.Reads k = true := by
          intro g k hk
          by_cases hg : g = f
          · subst hg
            rw [Function.update_self] at hk
            cases hk
            exact hreads
          · rw [Function.update_of_ne hg] at hk
            exact hraw g k hk
        have hslots : (fun g => (Function.update raw f (some j) g).or (rest.lookup g.name)) =
            fun g => (raw g).or (((f.name, j) :: rest).lookup g.name) := by
          funext g
          by_cases hg : g = f
          · subst hg
            simp [hfree]
          · have hne : (g.name == f.name) = false := by
              simpa using fun h => hg (Field.name_inj h)
            rw [Function.update_of_ne hg, List.lookup_cons, hne]
        rw [visitEntry_field hraw, hfree, if_neg (by simp), if_pos hreads]
        change rest.foldlM visitEntry _ = .ok s ↔ _
        rw [ih hupdate, hslots, List.map_cons, List.nodup_cons, List.forall_mem_cons]
        constructor
        · rintro ⟨hnodup, hrest, rfl⟩
          refine ⟨⟨?_, hnodup⟩, ⟨⟨f, rfl, hreads, hfree⟩, ?_⟩, rfl⟩
          · intro hmem
            obtain ⟨entry, hentry, hkey⟩ := List.mem_map.mp hmem
            obtain ⟨g, hg, -, hnone⟩ := hrest entry hentry
            rw [Field.name_inj (hg.symm.trans hkey), Function.update_self] at hnone
            cases hnone
          · intro entry hentry
            obtain ⟨g, hg, hread, hnone⟩ := hrest entry hentry
            refine ⟨g, hg, hread, ?_⟩
            by_cases hgf : g = f
            · exact hgf ▸ hfree
            · rwa [Function.update_of_ne hgf] at hnone
        · rintro ⟨⟨hnew, hnodup⟩, ⟨-, hrest⟩, rfl⟩
          refine ⟨hnodup, ?_, rfl⟩
          intro entry hentry
          obtain ⟨g, hg, hread, hnone⟩ := hrest entry hentry
          refine ⟨g, hg, hread, ?_⟩
          have hgf : g ≠ f := by
            rintro rfl
            exact hnew (List.mem_map.mpr ⟨entry, hentry, hg⟩)
          rwa [Function.update_of_ne hgf]
      · have herror : ∀ s', visitEntry (.of raw) entry ≠ .ok s' := by
          intro s' hs'
          obtain ⟨f, hf⟩ := visitEntry_known hs'
          obtain ⟨key, j⟩ := entry
          obtain rfl : key = f.name := hf
          rw [visitEntry_field hraw] at hs'
          split at hs'
          · cases hs'
          · rename_i hfree
            split at hs'
            · exact hknown ⟨f, rfl, by assumption, by simpa using hfree⟩
            · cases hs'
        constructor
        · intro h
          cases hs' : visitEntry (.of raw) entry with
          | ok s' => exact absurd hs' (herror s')
          | error e => rw [hs'] at h; cases h
        · rintro ⟨-, hall, -⟩
          exact absurd (hall entry List.mem_cons_self) hknown

end KeyLoop

/-! ### The checks behind the loop -/

/-- The entries of an event, in the order of the writer, with this value under
`event`. -/
def DispositionEvent.row (e : DispositionEvent) (marker : Json) : List (String × Json) :=
  [("v", .num 1), ("correlation_id", .str e.correlationId), ("event", marker),
    ("created_at", .num e.createdAt.toInt)] ++ e.tail

theorem DispositionEvent.toJson_eq (e : DispositionEvent) :
    e.toJson = .obj (e.row (.str e.kind.name)) := rfl

theorem asStr_eq_some {j : Json} {t : String} : j.asStr = some t ↔ j = .str t := by
  cases j <;> simp [Json.asStr]

theorem asI64_eq_some {j : Json} {t : Int64} : j.asI64 = some t ↔ j = .num t.toInt := by
  constructor
  · intro h
    cases j with
    | num n =>
        simp only [Json.asI64] at h
        split at h
        · rename_i hrange
          cases h
          rw [Int64.toInt_ofInt_of_le (by simpa using hrange.1) (by simpa using hrange.2)]
        · cases h
    | _ => cases h
  · rintro rfl
    exact Json.asI64_num_toInt t

theorem asU64_eq_one {j : Json} : j.asU64 = some 1 ↔ j = .num 1 := by
  constructor
  · intro h
    cases j with
    | num n =>
        simp only [Json.asU64] at h
        split at h
        · have hone : n.toNat = 1 := Option.some.inj h
          congr
          omega
        · cases h
    | _ => cases h
  · rintro rfl
    decide

theorem finish_eq_ok {s : Slots} {e : DispositionEvent} :
    s.finish = .ok e ↔
      s.v.isSome = true ∧ s.correlationId = some e.correlationId ∧ s.event = some e.kind ∧
        s.createdAt = some e.createdAt ∧
        s.cls = (e.tail.lookup "class").bind Json.asStr ∧
        s.bodyDigest = (e.tail.lookup "body_digest").bind Json.asStr := by
  obtain ⟨v, id, event, t, cls, digest⟩ := s
  cases v with
  | none => simp [Slots.finish, required, bind, Except.bind]
  | some v =>
  cases id with
  | none => simp [Slots.finish, required, bind, Except.bind]
  | some id =>
  cases event with
  | none => simp [Slots.finish, required, bind, Except.bind]
  | some event =>
  cases t with
  | none => simp [Slots.finish, required, bind, Except.bind]
  | some t =>
      cases event <;> cases cls <;> cases digest <;> cases e <;>
        simp [Slots.finish, required, forbidden, bind, Except.bind, pure, Except.pure,
          DispositionEvent.correlationId, DispositionEvent.kind, DispositionEvent.createdAt,
          DispositionEvent.tail, Json.asStr, List.lookup_cons]

/-! ### Acceptance -/

section Entries

variable {entries : List (String × Json)}

theorem mem_iff_lookup (h : (entries.map Prod.fst).Nodup) {key : String} {j : Json} :
    (key, j) ∈ entries ↔ entries.lookup key = some j := by
  induction entries with
  | nil => simp
  | cons entry rest ih =>
      obtain ⟨hnew, hrest⟩ := List.nodup_cons.mp h
      rw [List.mem_cons, ih hrest, List.lookup_cons]
      by_cases hkey : key = entry.1
      · subst hkey
        have hnone : rest.lookup entry.1 = none := by
          apply List.lookup_eq_none_iff.mpr
          intro p hp
          have hne : entry.1 ≠ p.1 := fun heq => hnew (heq ▸ List.mem_map_of_mem hp)
          simpa using hne
        simp [hnone, Prod.ext_iff, eq_comm]
      · have hne : (key == entry.1) = false := by simpa using hkey
        have hother : (key, j) ≠ entry := fun heq => hkey (congrArg Prod.fst heq)
        simp [hne, hother]

theorem get_obj_eq_lookup (h : (entries.map Prod.fst).Nodup) (key : String) :
    (Json.obj entries).get key = entries.lookup key := by
  induction entries with
  | nil => rfl
  | cons entry rest ih =>
      obtain ⟨hnew, hrest⟩ := List.nodup_cons.mp h
      rw [Json.get_obj_cons, List.lookup_cons]
      by_cases hkey : entry.1 = key
      · subst hkey
        simp [Json.get_obj_of_notMem hnew]
      · have hne : (key == entry.1) = false := by simpa using Ne.symm hkey
        rw [ih hrest, if_neg hkey, Option.or_none, hne]

/-- Every key is known and every value has the type of its field. -/
def Typed (entries : List (String × Json)) : Prop :=
  ∀ entry ∈ entries, ∃ f : Field, entry.1 = f.name ∧ f.Reads entry.2 = true

theorem Typed.reads (h : Typed entries) (hnodup : (entries.map Prod.fst).Nodup) {f : Field}
    {j : Json} (hj : entries.lookup f.name = some j) : f.Reads j = true := by
  obtain ⟨g, hg, hread⟩ := h _ ((mem_iff_lookup hnodup).mpr hj)
  rwa [Field.name_inj hg]

theorem deserialize_eq_ok {e : DispositionEvent} :
    DispositionEvent.deserialize (.obj entries) = .ok e ↔
      (entries.map Prod.fst).Nodup ∧ Typed entries ∧
        (Slots.of fun f => entries.lookup f.name).finish = .ok e := by
  have hloop : ∀ s, entries.foldlM visitEntry {} = .ok s ↔
      (entries.map Prod.fst).Nodup ∧ Typed entries ∧ s = .of fun f => entries.lookup f.name := by
    intro s
    have hempty : ∀ (f : Field) (j : Json),
        (fun _ => none : Field → Option Json) f = some j → f.Reads j = true := nofun
    change entries.foldlM visitEntry (.of fun _ => none) = .ok s ↔ _
    rw [foldlM_visitEntry entries hempty]
    simp [Typed]
  simp only [DispositionEvent.deserialize, bind, Except.bind]
  constructor
  · intro h
    cases hs : entries.foldlM visitEntry {} with
    | error err => rw [hs] at h; cases h
    | ok s =>
        obtain ⟨hnodup, htyped, rfl⟩ := (hloop s).mp hs
        exact ⟨hnodup, htyped, by simpa [hs] using h⟩
  · rintro ⟨hnodup, htyped, hfinish⟩
    rw [(hloop _).mpr ⟨hnodup, htyped, rfl⟩]
    exact hfinish

theorem version_eq_one (hnodup : (entries.map Prod.fst).Nodup) :
    (Json.obj entries).u64Field "v" = some 1 ↔ entries.lookup Field.v.name = some (.num 1) := by
  rw [Json.u64Field, get_obj_eq_lookup hnodup, Option.bind_eq_some_iff]
  constructor
  · rintro ⟨j, hj, hone⟩
    rw [asU64_eq_one.mp hone] at hj
    exact hj
  · intro h
    exact ⟨_, h, by decide⟩

end Entries

namespace DispositionEvent

variable {e : DispositionEvent} {marker : Json}

theorem row_nodup : ((e.row marker).map Prod.fst).Nodup := by
  cases e <;> simp [row, tail]

theorem row_typed (h : EventKind.ofJson marker = some e.kind) : Typed (e.row marker) := by
  have hv : Field.v.Reads (.num 1) = true := by decide
  have hevent : Field.event.Reads marker = true := by simp [Field.Reads, h]
  have htime : Field.createdAt.Reads (.num e.createdAt.toInt) = true := by simp [Field.Reads]
  have hhead : ∀ entry ∈ [("v", .num 1), ("correlation_id", .str e.correlationId),
      ("event", marker), ("created_at", .num e.createdAt.toInt)],
      ∃ f : Field, entry.1 = f.name ∧ f.Reads entry.2 = true := by
    simp only [List.forall_mem_cons]
    exact ⟨⟨.v, rfl, hv⟩, ⟨.correlationId, rfl, rfl⟩, ⟨.event, rfl, hevent⟩,
      ⟨.createdAt, rfl, htime⟩, nofun⟩
  intro entry hentry
  rcases List.mem_append.mp hentry with hentry | hentry
  · exact hhead entry hentry
  · cases e with
    | attempted | queued => cases hentry
    | delivered =>
        obtain rfl := List.mem_singleton.mp hentry
        exact ⟨.bodyDigest, rfl, rfl⟩
    | deliveryFailed | refused =>
        obtain rfl := List.mem_singleton.mp hentry
        exact ⟨.cls, rfl, rfl⟩

theorem lookup_row_cls : (e.row marker).lookup "class" = e.tail.lookup "class" := by
  simp [row, List.lookup_cons]

theorem lookup_row_bodyDigest :
    (e.row marker).lookup "body_digest" = e.tail.lookup "body_digest" := by
  simp [row, List.lookup_cons]

end DispositionEvent

/-- Two values of a text field that read as the same text are the same. -/
theorem bind_asStr_inj {a b : Option Json} (ha : ∀ j, a = some j → j.asStr.isSome = true)
    (hb : ∀ j, b = some j → j.asStr.isSome = true) (h : a.bind Json.asStr = b.bind Json.asStr) :
    a = b := by
  cases a with
  | none =>
      cases b with
      | none => rfl
      | some k =>
          rw [Option.bind_some, Option.bind_none] at h
          simpa [← h] using hb k rfl
  | some j =>
      obtain ⟨s, hs⟩ := Option.isSome_iff_exists.mp (ha j rfl)
      rw [Option.bind_some, hs] at h
      obtain ⟨k, rfl, hk⟩ := Option.bind_eq_some_iff.mp h.symm
      rw [asStr_eq_some.mp hs, asStr_eq_some.mp hk]

theorem reads_iff_perm {entries : List (String × Json)} {e : DispositionEvent} :
    (Json.obj entries).u64Field "v" = some 1 ∧
        DispositionEvent.deserialize (.obj entries) = .ok e ↔
      ∃ marker, EventKind.ofJson marker = some e.kind ∧ entries.Perm (e.row marker) := by
  rw [deserialize_eq_ok]
  constructor
  · rintro ⟨hv, hnodup, htyped, hfinish⟩
    obtain ⟨-, hid, hevent, htime, hcls, hdigest⟩ := finish_eq_ok.mp hfinish
    obtain ⟨j, hj, hid⟩ := Option.bind_eq_some_iff.mp hid
    obtain ⟨marker, hmarker, hkind⟩ := Option.bind_eq_some_iff.mp hevent
    obtain ⟨t, ht, htime⟩ := Option.bind_eq_some_iff.mp htime
    have htyped' := DispositionEvent.row_typed hkind
    have hlook : ∀ f : Field, entries.lookup f.name = (e.row marker).lookup f.name := by
      intro f
      cases f with
      | v => rw [(version_eq_one hnodup).mp hv]; rfl
      | correlationId => exact hj.trans (by rw [asStr_eq_some.mp hid]; rfl)
      | event => exact hmarker
      | createdAt => exact ht.trans (by rw [asI64_eq_some.mp htime]; rfl)
      | cls =>
          apply bind_asStr_inj
          · exact fun j => htyped.reads (f := .cls) hnodup
          · exact fun j => htyped'.reads (f := .cls) DispositionEvent.row_nodup
          · exact hcls.trans (by rw [← DispositionEvent.lookup_row_cls]; rfl)
      | bodyDigest =>
          apply bind_asStr_inj
          · exact fun j => htyped.reads (f := .bodyDigest) hnodup
          · exact fun j => htyped'.reads (f := .bodyDigest) DispositionEvent.row_nodup
          · exact hdigest.trans (by rw [← DispositionEvent.lookup_row_bodyDigest]; rfl)
    refine ⟨marker, hkind, ?_⟩
    apply (List.perm_ext_iff_of_nodup (List.Nodup.of_map _ hnodup)
      (List.Nodup.of_map _ DispositionEvent.row_nodup)).mpr
    rintro ⟨key, j⟩
    constructor
    · intro hmem
      obtain ⟨f, hf, -⟩ := htyped _ hmem
      obtain rfl : key = f.name := hf
      rw [mem_iff_lookup DispositionEvent.row_nodup, ← hlook, ← mem_iff_lookup hnodup]
      exact hmem
    · intro hmem
      obtain ⟨f, hf, -⟩ := htyped' _ hmem
      obtain rfl : key = f.name := hf
      rw [mem_iff_lookup hnodup, hlook, ← mem_iff_lookup DispositionEvent.row_nodup]
      exact hmem
  · rintro ⟨marker, hkind, hperm⟩
    have hnodup : (entries.map Prod.fst).Nodup :=
      (hperm.map Prod.fst).nodup_iff.mpr DispositionEvent.row_nodup
    have htyped : Typed entries := fun entry hentry =>
      DispositionEvent.row_typed hkind entry (hperm.subset hentry)
    have hlook : ∀ key, entries.lookup key = (e.row marker).lookup key := by
      intro key
      apply Option.ext
      intro j
      rw [← mem_iff_lookup hnodup, ← mem_iff_lookup DispositionEvent.row_nodup]
      exact hperm.mem_iff
    refine ⟨(version_eq_one hnodup).mpr (hlook _), hnodup, htyped, ?_⟩
    apply finish_eq_ok.mpr
    simp only [Slots.of, hlook]
    refine ⟨rfl, rfl, hkind, Json.asI64_num_toInt _, ?_, ?_⟩
    · exact congrArg (Option.bind · Json.asStr) DispositionEvent.lookup_row_cls
    · exact congrArg (Option.bind · Json.asStr) DispositionEvent.lookup_row_bodyDigest

def EventKind.fields : EventKind → List Field
  | .attempted | .queued => [.v, .correlationId, .event, .createdAt]
  | .delivered => [.v, .correlationId, .event, .createdAt, .bodyDigest]
  | .deliveryFailed | .refused => [.v, .correlationId, .event, .createdAt, .cls]

/-- An object of the union: marked with version 1, its keys those of the kind,
none of them twice, and every value of its field's type. -/
structure OfKind (k : EventKind) (entries : List (String × Json)) : Prop where
  version : ("v", .num 1) ∈ entries
  nodup : (entries.map Prod.fst).Nodup
  /-- No field of the kind is missing, and no key is unknown or foreign. -/
  keys : ∀ key, key ∈ entries.map Prod.fst ↔ key ∈ k.fields.map Field.name
  typed : ∀ (f : Field) j, (f.name, j) ∈ entries → f.Reads j = true
  /-- The kind is the one that `event` names. -/
  named : ∀ j, ("event", j) ∈ entries → EventKind.ofJson j = some k

theorem DispositionEvent.row_keys (e : DispositionEvent) (marker : Json) :
    (e.row marker).map Prod.fst = e.kind.fields.map Field.name := by
  cases e <;> rfl

theorem DispositionEvent.row_ofKind {e : DispositionEvent} {marker : Json}
    (h : EventKind.ofJson marker = some e.kind) : OfKind e.kind (e.row marker) where
  version := List.mem_cons_self
  nodup := row_nodup
  keys key := by rw [row_keys]
  typed f j hj := by
    obtain ⟨g, hg, hread⟩ := row_typed h _ hj
    rwa [Field.name_inj hg]
  named j hj := by
    rw [mem_iff_lookup row_nodup] at hj
    obtain rfl : marker = j := Option.some.inj hj
    exact h

theorem OfKind.perm {k : EventKind} {xs ys : List (String × Json)} (h : OfKind k xs)
    (hperm : ys.Perm xs) : OfKind k ys where
  version := hperm.mem_iff.mpr h.version
  nodup := (hperm.map Prod.fst).nodup_iff.mpr h.nodup
  keys key := (hperm.map Prod.fst).mem_iff.trans (h.keys key)
  typed f j hj := h.typed f j (hperm.subset hj)
  named j hj := h.named j (hperm.subset hj)

section Union

variable {k : EventKind} {entries : List (String × Json)}

theorem OfKind.value (h : OfKind k entries) {f : Field} (hf : f ∈ k.fields) :
    ∃ j, (f.name, j) ∈ entries ∧ f.Reads j = true := by
  obtain ⟨⟨key, j⟩, hmem, rfl⟩ := List.mem_map.mp ((h.keys f.name).mpr (List.mem_map_of_mem hf))
  exact ⟨j, hmem, h.typed f j hmem⟩

theorem OfKind.text (h : OfKind k entries) {f : Field} (hf : f ∈ k.fields)
    (hread : ∀ j, f.Reads j = j.asStr.isSome) : ∃ t, (f.name, .str t) ∈ entries := by
  obtain ⟨j, hmem, hj⟩ := h.value hf
  obtain ⟨t, ht⟩ := Option.isSome_iff_exists.mp ((hread j).symm.trans hj)
  exact ⟨t, asStr_eq_some.mp ht ▸ hmem⟩

theorem OfKind.exists_perm (h : OfKind k entries) :
    ∃ (e : DispositionEvent) (marker : Json),
      EventKind.ofJson marker = some e.kind ∧ entries.Perm (e.row marker) := by
  have hhead : ∀ f ∈ [Field.v, .correlationId, .event, .createdAt], f ∈ k.fields := by
    cases k <;> decide
  obtain ⟨id, hid⟩ := h.text (hhead .correlationId (by decide)) fun _ => rfl
  obtain ⟨marker, hmarker, -⟩ := h.value (hhead .event (by decide))
  obtain ⟨j, hj, hread⟩ := h.value (hhead .createdAt (by decide))
  obtain ⟨t, ht⟩ := Option.isSome_iff_exists.mp hread
  obtain rfl := asI64_eq_some.mp ht
  have hkind := h.named marker hmarker
  -- an event of the kind whose entries all stand in the object
  obtain ⟨e, rfl, hsub⟩ : ∃ e : DispositionEvent, e.kind = k ∧ e.row marker ⊆ entries := by
    have hrow : ∀ tail : List (String × Json), tail ⊆ entries →
        [("v", .num 1), ("correlation_id", .str id), ("event", marker),
          ("created_at", .num t.toInt)] ++ tail ⊆ entries := by
      intro tail htail
      apply List.append_subset.mpr
      simp only [List.cons_subset]
      exact ⟨⟨h.version, hid, hmarker, hj, List.nil_subset _⟩, htail⟩
    cases k with
    | attempted => exact ⟨.attempted id t, rfl, hrow [] (List.nil_subset _)⟩
    | queued => exact ⟨.queued id t, rfl, hrow [] (List.nil_subset _)⟩
    | delivered =>
        obtain ⟨d, hd⟩ := h.text (f := .bodyDigest) (by decide) fun _ => rfl
        exact ⟨.delivered id t d, rfl, hrow [_] (List.cons_subset.mpr ⟨hd, List.nil_subset _⟩)⟩
    | deliveryFailed =>
        obtain ⟨c, hc⟩ := h.text (f := .cls) (by decide) fun _ => rfl
        exact ⟨.deliveryFailed id t c, rfl, hrow [_] (List.cons_subset.mpr ⟨hc, List.nil_subset _⟩)⟩
    | refused =>
        obtain ⟨c, hc⟩ := h.text (f := .cls) (by decide) fun _ => rfl
        exact ⟨.refused id t c, rfl, hrow [_] (List.cons_subset.mpr ⟨hc, List.nil_subset _⟩)⟩
  refine ⟨e, marker, hkind, ?_⟩
  -- both sides have the same keys, each once
  have hnodup : ((e.row marker).map Prod.fst).Nodup := DispositionEvent.row_nodup
  apply (List.perm_ext_iff_of_nodup (List.Nodup.of_map _ h.nodup)
    (List.Nodup.of_map _ hnodup)).mpr
  rintro ⟨key, j⟩
  constructor
  · intro hmem
    have hkey := (h.keys key).mp (List.mem_map_of_mem hmem)
    rw [← DispositionEvent.row_keys e marker] at hkey
    obtain ⟨⟨_, j'⟩, hj', rfl⟩ := List.mem_map.mp hkey
    have heq := ((mem_iff_lookup h.nodup).mp hmem).symm.trans
      ((mem_iff_lookup h.nodup).mp (hsub hj'))
    exact Option.some.inj heq ▸ hj'
  · exact fun hmem => hsub hmem

end Union

section Rows

variable {serde : SerdeJson} {line : Bytes}

theorem parseRow_eq_some {e : DispositionEvent} :
    parseRow serde DispositionEvent.deserialize line = some e ↔
      ∃ j, serde.fromSlice line = some j ∧ j.u64Field "v" = some 1 ∧
        DispositionEvent.deserialize j = .ok e := by
  unfold parseRow parseVersionedValue
  cases hj : serde.fromSlice line with
  | none => simp
  | some j =>
      by_cases hv : j.u64Field "v" = some 1
      · cases hd : DispositionEvent.deserialize j <;>
          simp [hv, hd, Except.toOption]
      · simp [hv]

/-- The wire format. The reader returns an event exactly for the objects that
have its entries in some order; `event` holds the name of the kind or the
one-entry form of it. Equivalently, it takes the objects of the union. -/
theorem wireFormat (serde : SerdeJson) :
    (∀ e : DispositionEvent, DispositionEvent.deserialize e.toJson = .ok e) ∧
      (∀ line (e : DispositionEvent),
        parseRow serde DispositionEvent.deserialize line = some e ↔
          ∃ entries marker, serde.fromSlice line = some (.obj entries) ∧
            EventKind.ofJson marker = some e.kind ∧ entries.Perm (e.row marker)) ∧
      ∀ line entries, serde.fromSlice line = some (.obj entries) →
        ((parseRow serde DispositionEvent.deserialize line).isSome = true ↔
          ∃ k, OfKind k entries) := by
  have hrow : ∀ line (e : DispositionEvent),
      parseRow serde DispositionEvent.deserialize line = some e ↔
        ∃ entries marker, serde.fromSlice line = some (.obj entries) ∧
          EventKind.ofJson marker = some e.kind ∧ entries.Perm (e.row marker) := by
    intro line e
    rw [parseRow_eq_some]
    constructor
    · rintro ⟨j, hj, hv, hd⟩
      cases j with
      | obj entries =>
          obtain ⟨marker, hkind, hperm⟩ := reads_iff_perm.mp ⟨hv, hd⟩
          exact ⟨entries, marker, hj, hkind, hperm⟩
      | _ => cases hd
    · rintro ⟨entries, marker, hj, hkind, hperm⟩
      exact ⟨_, hj, reads_iff_perm.mpr ⟨marker, hkind, hperm⟩⟩
  refine ⟨DispositionEvent.deserialize_toJson, hrow, ?_⟩
  intro line entries hline
  rw [Option.isSome_iff_exists]
  constructor
  · rintro ⟨e, he⟩
    obtain ⟨entries', marker, hline', hkind, hperm⟩ := (hrow line e).mp he
    rw [hline] at hline'
    cases hline'
    exact ⟨e.kind, (DispositionEvent.row_ofKind hkind).perm hperm⟩
  · rintro ⟨k, hk⟩
    obtain ⟨e, marker, hkind, hperm⟩ := hk.exists_perm
    exact ⟨e, (hrow line e).mpr ⟨entries, marker, hline, hkind, hperm⟩⟩

/-- A row whose `event` is the one-entry form. -/
def nestedKind : List (String × Json) :=
  [("v", .num 1), ("correlation_id", .str "c-1"), ("event", .obj [("queued", .null)]),
    ("created_at", .num 7)]

/-- The reader takes an object that is not the row of any event, in any order. -/
theorem nestedKind_accepted :
    ¬ ∀ (serde : SerdeJson) (line : Bytes) (entries : List (String × Json)),
      serde.fromSlice line = some (.obj entries) →
        ((parseRow serde DispositionEvent.deserialize line).isSome = true ↔
          ∃ e : DispositionEvent, ∃ row, e.toJson = .obj row ∧ entries.Perm row) := by
  intro h
  have hread : (SerdeJson.knowing [.obj nestedKind]).fromSlice
      (encodeUtf8 (Json.obj nestedKind).compact) = some (.obj nestedKind) := by
    simp [SerdeJson.knowing]
  have haccept : (parseRow (SerdeJson.knowing [.obj nestedKind]) DispositionEvent.deserialize
      (encodeUtf8 (Json.obj nestedKind).compact)).isSome = true := by
    have hqueued : DispositionEvent.deserialize (.obj nestedKind) = .ok (.queued "c-1" 7) := rfl
    rw [parseRow_eq_some.mpr ⟨_, hread, by decide, hqueued⟩]
    rfl
  obtain ⟨e, row, hrow, hperm⟩ := (h _ _ _ hread).mp haccept
  rw [e.toJson_eq] at hrow
  cases hrow
  have hmem : ("event", .obj [("queued", .null)]) ∈ e.row (.str e.kind.name) :=
    hperm.subset (by simp [nestedKind])
  rw [mem_iff_lookup DispositionEvent.row_nodup] at hmem
  cases hmem

end Rows

def turnedRow : List (String × Json) :=
  (DispositionEvent.row (.delivered "c-1" 7 "ab") (.str "delivered")).reverse

theorem wireFormat_delivered :
    (parseRow (.knowing [.obj turnedRow]) DispositionEvent.deserialize
      (encodeUtf8 (Json.obj turnedRow).compact)).isSome = true := by
  have hread : (SerdeJson.knowing [.obj turnedRow]).fromSlice
      (encodeUtf8 (Json.obj turnedRow).compact) = some (.obj turnedRow) := by
    simp [SerdeJson.knowing]
  apply ((wireFormat _).2.2 _ _ hread).mpr
  exact ⟨.delivered, (DispositionEvent.row_ofKind (e := .delivered "c-1" 7 "ab") (by decide)).perm
    (List.reverse_perm _)⟩

end QuorumDispatch.Dispositions
