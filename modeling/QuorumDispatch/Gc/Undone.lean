import QuorumDispatch.Gc.Kept

/-!
What a move to the trash that is not made leaves behind: nothing. The places where a call may have files follow
from how far it has come, and it ends where it has none.
-/

namespace QuorumDispatch.Gc

open Lib

section Moves

variable {toStringPretty : TrashMeta → Option Bytes} {s s' : Disk} {i n : Nat} {c : Call}

def Disk.Own (s : Disk) (i : Nat) (place : Place) : Prop := ∃ file, s.names place = some file ∧ s.maker file = some i

/-- Where a call may have files in the trash. -/
def Progress.Places (c : Call) : Progress → Place → Prop
  | .idle, _ | .ended, _ => False
  | .made _, place | .noted _, place | .opened .., place => place = c.metaPath
  | .undoCopy _, place => place = c.trashPath
  | .lost, _ => True
  | _, place => place = c.metaPath ∨ place = c.trashPath

theorem Disk.own_before {j : Nat} {place : Place} {e : Exchange Ask Answer} (hk : s.Known n)
    (hans : s.answers j e s') (h : s'.Own i place) :
    (i = j ∧ ∃ file, e = ⟨.createNew place, some file⟩) ∨
      s.Own i place ∧ ∀ a, e = ⟨.removeFile place, a⟩ → a = .failed := by
  obtain ⟨-, hs⟩ := hans
  obtain ⟨file, hname, hmaker⟩ := h
  obtain ⟨q, a⟩ := e
  cases q with
  | createNew place' =>
      cases a with
      | none =>
          obtain rfl : s' = s := hs
          exact .inr ⟨⟨file, hname, hmaker⟩, nofun⟩
      | some g =>
          obtain ⟨-, rfl, rfl⟩ := hs
          change Function.update s.names place' (some s.next) place = some file at hname
          change Function.update s.maker s.next (some j) file = some i at hmaker
          by_cases hplace : place = place'
          · subst hplace
            rw [Function.update_self] at hname
            cases hname
            rw [Function.update_self] at hmaker
            exact .inl ⟨(Option.some.inj hmaker).symm, _, rfl⟩
          · rw [Function.update_of_ne hplace] at hname
            rw [Function.update_of_ne (hk.bound _ _ hname).ne] at hmaker
            exact .inr ⟨⟨file, hname, hmaker⟩, nofun⟩
  | removeFile place' =>
      match a with
      | .ok =>
          obtain ⟨g, -, rfl⟩ := hs
          change Function.update s.names place' none place = some file at hname
          have hplace : place ≠ place' := by
            rintro rfl
            rw [Function.update_self] at hname
            cases hname
          rw [Function.update_of_ne hplace] at hname
          refine .inr ⟨⟨file, hname, hmaker⟩, ?_⟩
          rintro _ ⟨⟩
          exact absurd rfl hplace
      | .notFound =>
          obtain ⟨hnone, rfl⟩ := hs
          refine .inr ⟨⟨file, hname, hmaker⟩, ?_⟩
          rintro _ ⟨⟩
          cases hnone.symm.trans hname
      | .failed =>
          obtain rfl : s' = s.endCopy j := hs
          exact .inr ⟨⟨file, hname, hmaker⟩, fun _ he => by cases he; rfl⟩
  | writeAll g bytes =>
      match a with
      | .done =>
          obtain rfl : s' = s.append g bytes := hs
          exact .inr ⟨⟨file, hname, hmaker⟩, nofun⟩
      | .failed | .died =>
          obtain ⟨part, -, rfl⟩ := hs
          exact .inr ⟨⟨file, hname, hmaker⟩, nofun⟩
  | openRead src =>
      cases a with
      | none =>
          obtain rfl : s' = s := hs
          exact .inr ⟨⟨file, hname, hmaker⟩, nofun⟩
      | some r =>
          obtain ⟨-, rfl⟩ := hs
          exact .inr ⟨⟨file, hname, hmaker⟩, nofun⟩
  | createDirAll dir =>
      obtain rfl : s' = s := hs
      exact .inr ⟨⟨file, hname, hmaker⟩, nofun⟩
  | read g offset =>
      obtain rfl : s' = s := by
        cases a with
        | none => exact hs
        | some chunk => exact hs.2.2
      exact .inr ⟨⟨file, hname, hmaker⟩, nofun⟩

/-- What a call has in the trash is where it may be, as long as nothing fails on it. -/
theorem Progress.places_answer {p : Progress} {e : Exchange Ask Answer} (hk : s.Known n)
    (hq : p.Allows toStringPretty c e.question) (hans : s.answers i e s') (hcalm : ¬ Fails e)
    (h : ∀ dir name, s.Own i (.trash dir name) → p.Places c (.trash dir name)) (dir name : List Char)
    (hown : s'.Own i (.trash dir name)) : (p.step e).Places c (.trash dir name) := by
  obtain ⟨-, file, rfl⟩ | ⟨hold, hleft⟩ := Disk.own_before hk hans hown
  · cases p with
    | idle => exact hq
    | opened g r => exact .inr hq
    | _ => exact hq.elim
  · have hplaces := h dir name hold
    have hgone (a : Removed) (he : e = ⟨.removeFile (.trash dir name), a⟩) : False := by
      subst he
      obtain rfl := hleft a rfl
      exact hcalm trivial
    obtain ⟨q, a⟩ := e
    cases p with
    | made g =>
        cases q with
        | writeAll file bytes =>
            match a with
            | .done => exact hplaces
            | .failed => exact (hcalm trivial).elim
            | .died => trivial
        | _ => exact hq.elim
    | noted g =>
        cases q with
        | openRead src => cases a <;> exact hplaces
        | removeFile place =>
            obtain rfl : place = .trash dir name := hq.trans hplaces.symm
            exact (hgone a rfl).elim
        | _ => exact hq.elim
    | opened g r =>
        cases q with
        | createNew place =>
            cases a with
            | none => exact hplaces
            | some w => exact .inl hplaces
        | _ => exact hq.elim
    | copying g r w got =>
        cases q with
        | read file offset =>
            match a with
            | none => exact (hcalm trivial).elim
            | some [] => exact hplaces
            | some (b :: chunk) => exact hplaces
        | _ => exact hq.elim
    | holding g r w got chunk =>
        cases q with
        | writeAll file bytes =>
            match a with
            | .done => exact hplaces
            | .failed => exact (hcalm trivial).elim
            | .died => trivial
        | _ => exact hq.elim
    | copied g r w =>
        cases q with
        | removeFile place =>
            match a with
            | .ok => exact hplaces
            | .notFound => exact hplaces
            | .failed => exact hplaces
        | _ => exact hq.elim
    | undo g w =>
        cases q with
        | removeFile place =>
            obtain hmeta | hcopy := hplaces
            · obtain rfl : place = .trash dir name := hq.trans hmeta.symm
              exact (hgone a rfl).elim
            · exact hcopy
        | _ => exact hq.elim
    | undoCopy w =>
        cases q with
        | removeFile place =>
            obtain rfl : place = .trash dir name := hq.trans hplaces.symm
            exact (hgone a rfl).elim
        | _ => exact hq.elim
    | idle => exact hplaces.elim
    | ended => exact hplaces.elim
    | moved g w => cases q <;> exact hq.elim
    | lost => cases q <;> exact hq.elim

structure Owned (p : Pool Disk (moveToTrashAt toStringPretty)) : Prop where
  inv : Inv toStringPretty p
  owned : ∀ i dir name, p.shared.Own i (.trash dir name) →
    ∃ f, p.fibers[i]? = some f ∧ (progress f.asked).Places f.key (.trash dir name)

theorem Owned.step {p p' : Pool Disk (moveToTrashAt toStringPretty)} {a : PoolAct Call Ask Answer}
    (h : Owned p) (hstep : Pool.Step (rules toStringPretty True) p a p')
    (hcalm : allowedAct toStringPretty True p a) : Owned p' := by
  refine ⟨h.inv.step hstep, fun i dir name hown => ?_⟩
  cases hstep with
  | start key =>
      obtain ⟨f, hf, hplaces⟩ := h.owned i dir name hown
      exact ⟨f, by rw [List.getElem?_append_left (List.getElem?_eq_some_iff.mp hf).1, hf], hplaces⟩
  | move hs =>
      refine h.owned i dir name ?_
      rcases hs with ⟨j, rfl⟩ | ⟨hothers, -⟩
      · exact hown
      · rwa [Disk.Own, hothers.trash, hothers.maker] at hown
  | @answer s j f q next b hf hq hs =>
      have hallowed := Fiber.allowed_next (moveToTrashAt_ensures f.key) hq
      have hlt := (List.getElem?_eq_some_iff.mp hf).1
      by_cases hij : i = j
      · subst hij
        refine ⟨_, List.getElem?_set_self hlt, ?_⟩
        rw [Fiber.answer, progress_snoc]
        refine Progress.places_answer (e := ⟨q, b⟩) h.inv.known hallowed hs (hcalm trivial _ _ rfl)
          (fun dir name hold => ?_) _ _ hown
        obtain ⟨g, hg, hplaces⟩ := h.owned i dir name hold
        rw [hf] at hg
        cases hg
        exact hplaces
      · obtain ⟨rfl, -⟩ | ⟨hold, -⟩ := Disk.own_before h.inv.known hs hown
        · exact absurd rfl hij
        · rw [List.getElem?_set_ne (Ne.symm hij)]
          exact h.owned i dir name hold

/-- **A move that is not made leaves nothing.** When nothing fails on what a call has made, a call that returned
false has no file in the trash and has not removed its source. -/
theorem false_leaves_nothing {s₀ : Disk} (hs₀ : s₀.Fresh) {p : Pool Disk (moveToTrashAt toStringPretty)}
    (hp : Pool.Reachable (rules toStringPretty True) (allowedAct toStringPretty True) s₀ p) (i : Nat)
    (f : Fiber (moveToTrashAt toStringPretty)) (hf : p.fibers[i]? = some f) (hfalse : f.rest = .pure (some false)) :
    p.shared.unlinked i = none ∧
      ∀ dir name file, p.shared.names (.trash dir name) = some file → p.shared.maker file ≠ some i := by
  have hinit : @Owned toStringPretty ⟨s₀, []⟩ :=
    ⟨⟨hs₀.known, nofun⟩, fun i dir name ⟨file, _, hmaker⟩ => nomatch (hs₀.maker file).symm.trans hmaker⟩
  have h := hp.invariant hinit fun _ _ _ h hstep hcalm => h.step hstep hcalm
  have hended := (moveToTrashAt_ensures f.key).leads f.leads
  rw [hfalse] at hended
  have hstage := hended rfl
  constructor
  · have hagrees := h.inv.calls i f hf
    rcases hstage with hstage | hstage <;> exact (hstage ▸ hagrees :)
  · intro dir name file hname hmaker
    obtain ⟨g, hg, hplaces⟩ := h.owned i dir name ⟨file, hname, hmaker⟩
    rw [hf] at hg
    cases hg
    rcases hstage with hstage | hstage <;> rw [List.nil_append] at hstage <;> rw [hstage] at hplaces <;> exact hplaces

def undoneRun : List (Exchange Ask Answer) :=
  [⟨.createDirAll inboxCall.trashDir, true⟩, ⟨.createNew inboxCall.metaPath, some 1⟩,
    ⟨.writeAll 1 (prettyText inboxCall.trashMeta), .done⟩, ⟨.openRead inboxCall.src, none⟩,
    ⟨.removeFile inboxCall.metaPath, .ok⟩]

theorem inboxCall_undone :
    ∃ p, ∃ f : Fiber (moveToTrashAt prettyMeta),
      Pool.Reachable (rules prettyMeta True) (allowedAct prettyMeta True) inboxDisk p ∧ p.fibers[0]? = some f ∧
        f.rest = .pure (some false) ∧ p.shared.unlinked 0 = none ∧
          ∀ dir name file, p.shared.names (.trash dir name) = some file → p.shared.maker file ≠ some 0 := by
  have hstart : Pool.Reachable (rules prettyMeta True) (allowedAct prettyMeta True) inboxDisk
      ⟨inboxDisk, [.new inboxCall]⟩ := Pool.Reachable.init.step (.start inboxCall) fun _ _ _ h => nomatch h
  let noted := (inboxDisk.create 0 inboxCall.metaPath).append 1 (prettyText inboxCall.trashMeta)
  have hleads : (moveToTrashAt prettyMeta inboxCall).Leads undoneRun (.pure (some false)) := by
    refine .ask (A := Answer) (q := .createDirAll inboxCall.trashDir) true ?_
    refine .ask (A := Answer) (q := .createNew inboxCall.metaPath) (some 1) ?_
    refine .ask (A := Answer) (q := .writeAll 1 (prettyText inboxCall.trashMeta)) .done ?_
    refine .ask (A := Answer) (q := .openRead inboxCall.src) none ?_
    exact .ask (A := Answer) (q := .removeFile inboxCall.metaPath) .ok .here
  have hmeta : noted.names inboxCall.metaPath = some 1 := by
    change Function.update inboxDisk.names inboxCall.metaPath (some 1) inboxCall.metaPath = some 1
    rw [Function.update_self]
  have hserves : Pool.Serves (rules prettyMeta True) 0 inboxDisk undoneRun (noted.unlink 0 inboxCall.metaPath 1) := by
    exact ⟨_, ⟨rfl, rfl⟩, _, ⟨rfl, rfl, rfl, rfl⟩, noted, ⟨rfl, rfl⟩, _, ⟨rfl, rfl⟩, _, ⟨rfl, 1, hmeta, rfl⟩, rfl⟩
  have hcalm : ∀ e ∈ undoneRun, ¬ Fails e := by
    simp only [undoneRun, List.forall_mem_cons]
    exact ⟨id, id, id, id, id, nofun⟩
  obtain ⟨f, -, -, hrest, hreach⟩ := hstart.serve rfl hleads hserves fun _ e he _ _ _ hact =>
    (PoolAct.answer.inj hact).2 ▸ hcalm e he
  exact ⟨_, f, hreach, rfl, hrest, false_leaves_nothing inboxDisk_fresh hreach 0 f rfl hrest⟩

end Moves

end QuorumDispatch.Gc
