import ClassSchema.Proofs.Store.Footprint

/-!
# Calls, however they go

What a call of the store leaves as it was, it leaves so if it fails as well. A schema is stored in steps,
and what every step keeps is kept, wherever the steps break off.
-/

namespace ClassSchema.Store

open FileTree ClassSchema.Path

open Storing (Keeps after after_bind_of)

variable {store : Store} {schema : Schema} {name other : String} {place q : List String}
  {s u : StoreState} {P : StoreState → Prop}

/-! ### The steps -/

theorem after_stage_of (hschema : schema.Named) (hs : P s)
    (hput : ∀ staging place, Slot store schema.name staging place s.tree → ∀ es, P (withStaging place s es))
    (hswap : ∀ staging place, Slot store schema.name staging place s.tree →
      Keeps P (store.swap schema.name staging))
    (hremove : ∀ staging place, Slot store schema.name staging place s.tree →
      Keeps P (removeAll staging)) : P (after (store.stage schema) s) := by
  obtain ⟨hmake, -⟩ | ⟨staging, place, hmake, hslot⟩ := makeStaging_cases store schema.name s
  · have hstage : after (store.stage schema) s = s := by rw [after, stage, bind_apply, hmake]
    rw [hstage]
    exact hs
  have hfilled := hput staging place hslot
  have hstage : after (store.stage schema) s = after (Storing.orUndo (do
      store.copyLive schema.name place
      let outcomes ← store.fill schema place
      store.swap schema.name staging
      return outcomes) (removeAll staging)) (withStaging place s .empty) := by
    rw [after, stage, bind_apply, hmake]
    rfl
  rw [hstage]
  refine Storing.after_orUndo_of ?_ (hremove staging place hslot)
  obtain ⟨hcopy, -⟩ | ⟨es, hcopy, -⟩ := copyLive_cases hslot
  · refine after_bind_of ?_ fun _ s₁ hcopied _ => ?_
    · rw [Storing.after_of_error hcopy]
      exact hfilled .empty
    · rw [hcopy] at hcopied
      cases hcopied
  · refine after_bind_of ?_ fun _ s₁ hcopied _ => ?_
    · rw [Storing.after_of_ok hcopy]
      exact hfilled es
    · rw [hcopy] at hcopied
      obtain ⟨-, rfl⟩ := EStateM.Result.ok.inj hcopied
      obtain ⟨es', hfill⟩ := fill_withStaging store es hschema hslot.kindAt_dropLast
      refine after_bind_of ?_ fun outcomes s₂ hdone hs₂ => ?_
      · cases hdraft : store.draft schema s.cache es with
        | error e =>
          rw [hdraft] at hfill
          rw [Storing.after_of_error hfill]
          exact hfilled es'
        | ok draft =>
          rw [hdraft] at hfill
          rw [Storing.after_of_ok hfill]
          exact hfilled draft.entries
      · exact after_bind_of (hswap staging place hslot s₂ hs₂) fun _ s₃ _ hs₃ => hs₃

theorem cache_after_stage (hschema : schema.Named) (s : StoreState) :
    (after (store.stage schema) s).cache = s.cache :=
  after_stage_of (P := fun u => u.cache = s.cache) hschema rfl (fun _ _ _ _ => rfl)
    (fun _ _ _ => keeps_swap (keeps_cache_removeAll _ _) (fun _ => keeps_cache_moveTo _ _ _ _ _)
      (fun _ => keeps_cache_moveTo _ _ _ _ _) (fun _ => keeps_cache_moveTo _ _ _ _ _))
    (fun _ _ _ => keeps_cache_removeAll _ _)

theorem contentAt_after_stage (hschema : schema.Named) (hlive : ¬ store.livePlace schema.name <+: q)
    (hbackup : ¬ store.backupPlace schema.name <+: q)
    (hstaging : ∀ staging place, Slot store schema.name staging place s.tree → ¬ place <+: q) :
    (after (store.stage schema) s).tree.contentAt q = s.tree.contentAt q := by
  have harrival (staging : String) (place : List String)
      (hslot : Slot store schema.name staging place s.tree) : ¬ arrival (pieces staging) [] <+: q := by
    rw [← hslot.arrival_eq]
    exact hstaging staging place hslot
  exact after_stage_of (P := fun u => u.tree.contentAt q = s.tree.contentAt q) hschema rfl
    (fun staging place hslot _ => contentAt_put_of_not_below (hstaging staging place hslot))
    (fun staging place hslot => keeps_content_swap hlive hbackup (harrival staging place hslot) _)
    (fun staging place hslot => keeps_content_removeAll (harrival staging place hslot) _)

theorem after_deleteStale (name : String) (folder : List String) (file : String) (s : StoreState) :
    after (deleteStale name folder file) s = s ∨
      after (deleteStale name folder file) s =
        after (SignatureCache.delete (SignatureCache.keyOf name (artifactName file)))
          { s with tree := s.tree.remove (folder ++ [file]) } := by
  simp only [after, deleteStale]
  cases (entriesAt s.tree folder).get? file with
  | none => exact .inl rfl
  | some u =>
    cases u with
    | file text => exact .inr rfl
    | folder es => exact .inl rfl

theorem after_reconcile_of (hs : P s) (h : ∀ file ∈ staleFiles schema (entriesAt s.tree place),
    Keeps P (deleteStale schema.name place file)) : P (after (reconcile schema place) s) :=
  after_bind_of (x := Storing.each (deleteStale schema.name place)
    (staleFiles schema (entriesAt s.tree place))) (Keeps.each h s hs) fun _ _ _ hs₁ => hs₁

/-- Storing a schema step by step; each step is taken only if those before went well. -/
theorem after_persist_of (hopen : P (after store.openRoot s))
    (hstage : ∀ opened, store.openRoot s = .ok () opened → P opened → P (after (store.stage schema) opened))
    (hremember : ∀ opened outcomes swapped, store.openRoot s = .ok () opened →
      store.stage schema opened = .ok outcomes swapped → P swapped →
        P (after (remember schema.name outcomes) swapped))
    (hreconcile : ∀ opened outcomes swapped remembered, store.openRoot s = .ok () opened →
      store.stage schema opened = .ok outcomes swapped →
        remember schema.name outcomes swapped = .ok () remembered → P remembered →
          P (after (reconcile schema (store.livePlace schema.name)) remembered)) :
    P (after (store.persist schema) s) := by
  refine after_bind_of hopen fun _ opened hopened h₁ => ?_
  refine after_bind_of (hstage opened hopened h₁) fun outcomes swapped hstaged h₂ => ?_
  refine after_bind_of (hremember opened outcomes swapped hopened hstaged h₂)
    fun _ remembered hremembered h₃ => ?_
  have hfind : P (after (store.findLive schema.name) remembered) := by
    rw [after, findLive]
    cases remembered.tree.locate? (store.schemaPath schema.name) <;> exact h₃
  refine after_bind_of hfind fun live found hfound h₄ => ?_
  obtain ⟨rfl, rfl⟩ := findLive_ok hfound
  exact after_bind_of (hreconcile opened outcomes swapped found hopened hstaged hremembered h₄)
    fun _ _ _ h₅ => h₅

/-- Clearing a schema takes its folder away, and then deletes keys that begin with its name. -/
theorem keeps_clear (hremove : Keeps P (removeAll (store.schemaPath name)))
    (hdelete : ∀ key, (SignatureCache.keyOf name "").toList <+: key.toList →
      Keeps P (SignatureCache.delete key)) : Keeps P (store.clear name) := by
  have hfolder : Keeps P (store.removeFolder name) :=
    .ite (fun s => s.tree.hasFolder (store.schemaPath name)) hremove (Storing.keeps_pure ())
  refine hfolder.bind fun _ _ s₁ _ hs₁ => ?_
  refine Keeps.each (fun key hkey => hdelete key ?_) s₁ hs₁
  exact List.isPrefixOf_iff_prefix.mp (List.mem_filter.mp hkey).2

/-! ### The folder of another schema -/

/-- The places that the path of a schema leads through, and its live folder. -/
def passed (store : Store) (name : String) : List (List String) := walk (pieces (store.schemaPath name)) []

/-- A place is in the live folder of a schema, or the path of the schema leads into it. -/
def Overlaps (store : Store) (name : String) (place : List String) : Prop :=
  store.livePlace name <+: place ∨ ∃ p ∈ store.passed name, place <+: p

/-- Through folders the path of a schema leads to a folder, and this holds what it held in another state. -/
structure SameFolder (store : Store) (name : String) (s u : StoreState) : Prop where
  path : u.cache.path = s.cache.path
  passed : ∀ p ∈ store.passed name, u.tree.kindAt p = some true
  content : ∀ below, u.tree.contentAt (store.livePlace name ++ below) =
    s.tree.contentAt (store.livePlace name ++ below)

theorem livePlace_mem_passed (store : Store) (name : String) : store.livePlace name ∈ store.passed name :=
  arrival_mem_walk _ _

theorem not_prefix_of_not_overlaps (h : ¬ store.Overlaps other place) (below : List String) :
    ¬ place <+: store.livePlace other ++ below := by
  intro hp
  rcases List.prefix_or_prefix_of_prefix hp (List.prefix_append _ below) with habove | hbelow
  · exact h (.inr ⟨_, store.livePlace_mem_passed other, habove⟩)
  · exact h (.inl hbelow)

theorem Slot.not_overlaps {staging : String} {t : FileTree} (hslot : Slot store name staging place t)
    (hpassed : ∀ p ∈ store.passed other, t.kindAt p = some true)
    (hbackup : ¬ store.Overlaps other (store.backupPlace name)) : ¬ store.Overlaps other place := by
  have hfresh (p : List String) (hp : p ∈ store.passed other) : ¬ place <+: p :=
    not_prefix_of_none hslot.fresh (hpassed p hp)
  rintro (hbelow | ⟨p, hp, habove⟩)
  · by_cases hparent : store.livePlace other <+: place.dropLast
    · rw [hslot.dropLast_eq] at hparent
      exact hbackup (.inl (hparent.trans (List.dropLast_prefix _)))
    · have hsame := (prefix_iff_eq hparent).mp hbelow
      exact hfresh _ (store.livePlace_mem_passed other) (hsame ▸ List.prefix_rfl)
  · exact hfresh p hp habove

namespace SameFolder

theorem removed (h : SameFolder store other s u) (hplace : ¬ store.Overlaps other place) {v : StoreState}
    (hpath : v.cache.path = u.cache.path)
    (hcontent : ∀ p, ¬ place <+: p → v.tree.contentAt p = u.tree.contentAt p) :
    SameFolder store other s v where
  path := hpath.trans h.path
  passed := fun p hp => by
    rw [kindAt_eq_of_contentAt (hcontent p fun habove => hplace (.inr ⟨p, hp, habove⟩)), h.passed p hp]
  content := fun below => (hcontent _ (not_prefix_of_not_overlaps hplace below)).trans (h.content below)

theorem keeps_put (havoid : s.cache.Avoids (store.livePlace other)) (key value : String) :
    Keeps (SameFolder store other s) (SignatureCache.put key value) := by
  intro u hu
  refine ⟨(SignatureCache.path_after_put key value u).trans hu.path,
    fun p hp => SignatureCache.kindAt_after_put key value (hu.passed p hp), fun below => ?_⟩
  have hsame := SignatureCache.sameAt_after_put
    ((havoid.mono (List.prefix_append _ below)).of_path hu.path) key value
  rw [contentAt, hsame.tree, ← contentAt, hu.content]

theorem keeps_delete (havoid : s.cache.Avoids (store.livePlace other)) (key : String) :
    Keeps (SameFolder store other s) (SignatureCache.delete key) := by
  intro u hu
  refine ⟨(SignatureCache.path_after_delete key u).trans hu.path,
    fun p hp => SignatureCache.kindAt_after_delete key (hu.passed p hp), fun below => ?_⟩
  have hsame := SignatureCache.sameAt_after_delete
    ((havoid.mono (List.prefix_append _ below)).of_path hu.path) key
  rw [contentAt, hsame.tree, ← contentAt, hu.content]

theorem after_openRoot (h : SameFolder store other s s)
    (hroot : ∀ p ∈ walk (pieces store.root) [], store.livePlace other <+: p → s.tree.at? p ≠ none) :
    SameFolder store other s (after store.openRoot s) := by
  rw [Store.after_openRoot]
  refine ⟨rfl, fun p hp => ?_, fun below => ?_⟩
  · rw [kindAt_grown _ _ (by simp [h.passed p hp]), h.passed p hp]
  · rcases contentAt_grown s.tree (pieces store.root) [] (store.livePlace other ++ below) with
      hsame | ⟨hway, hnone, -⟩
    · exact hsame
    · exact absurd (contentAt_eq_none_iff.mp hnone) (hroot _ hway (List.prefix_append _ _))

theorem after_stage (hschema : schema.Named) (h : SameFolder store other s u)
    (hlive : ¬ store.Overlaps other (store.livePlace schema.name))
    (hbackup : ¬ store.Overlaps other (store.backupPlace schema.name)) :
    SameFolder store other s (after (store.stage schema) u) := by
  have hstaging (staging : String) (place : List String)
      (hslot : Slot store schema.name staging place u.tree) : ¬ store.Overlaps other place :=
    hslot.not_overlaps h.passed hbackup
  refine ⟨(congrArg _ (cache_after_stage hschema u)).trans h.path, fun p hp => ?_, fun below => ?_⟩
  · rw [kindAt_eq_of_contentAt (contentAt_after_stage hschema (fun hp' => hlive (.inr ⟨p, hp, hp'⟩))
      (fun hp' => hbackup (.inr ⟨p, hp, hp'⟩))
      fun staging place hslot hp' => hstaging staging place hslot (.inr ⟨p, hp, hp'⟩)), h.passed p hp]
  · rw [contentAt_after_stage hschema (not_prefix_of_not_overlaps hlive below)
      (not_prefix_of_not_overlaps hbackup below)
      fun staging place hslot => not_prefix_of_not_overlaps (hstaging staging place hslot) below, h.content]

theorem keeps_deleteStale (havoid : s.cache.Avoids (store.livePlace other))
    (hplace : ¬ store.Overlaps other place) (file : String) :
    Keeps (SameFolder store other s) (deleteStale name place file) := by
  intro u hu
  rcases after_deleteStale name place file u with hstep | hstep
  · rw [hstep]
    exact hu
  · rw [hstep]
    refine keeps_delete havoid _ _ (hu.removed hplace rfl fun p hp => ?_)
    exact contentAt_remove_of_not_below fun hbelow => hp ((List.prefix_append _ _).trans hbelow)

/-- Storing a schema, however it goes, leaves a folder alone that its own folders do not overlap. -/
theorem after_persist (hschema : schema.Named) (h : SameFolder store other s s)
    (havoid : s.cache.Avoids (store.livePlace other))
    (hlive : ¬ store.Overlaps other (store.livePlace schema.name))
    (hbackup : ¬ store.Overlaps other (store.backupPlace schema.name))
    (hroot : ∀ p ∈ walk (pieces store.root) [], store.livePlace other <+: p → s.tree.at? p ≠ none) :
    SameFolder store other s (after (store.persist schema) s) :=
  after_persist_of (h.after_openRoot hroot) (fun _ _ hopened => hopened.after_stage hschema hlive hbackup)
    (fun _ _ _ _ _ hswapped => Keeps.each (fun _ _ => keeps_put havoid _ _) _ hswapped)
    (fun _ _ _ _ _ _ _ hremembered => after_reconcile_of hremembered fun file _ =>
      keeps_deleteStale havoid hlive file)

theorem keeps_clear (havoid : s.cache.Avoids (store.livePlace other))
    (hlive : ¬ store.Overlaps other (store.livePlace name)) :
    Keeps (SameFolder store other s) (store.clear name) := by
  refine Store.keeps_clear (fun u hu => ?_) fun key _ => keeps_delete havoid key
  rw [after_removeAll]
  exact hu.removed hlive rfl fun p hp => contentAt_removeFolder hp

end SameFolder

/-! ### Keys -/

theorem eq_or_isPrefix_of_append_cons {α : Type} {sep : α} {a b x y : List α} (hy : sep ∉ y)
    (h : a ++ sep :: x = b ++ sep :: y) : a = b ∨ a ++ [sep] <+: b := by
  rcases List.append_eq_append_iff.mp h with ⟨more, hb, htail⟩ | ⟨more, ha, htail⟩
  · cases more with
    | nil => exact .inl (by simpa using hb.symm)
    | cons c more =>
      obtain ⟨rfl, -⟩ := List.cons.inj htail
      exact .inr ⟨more, by simp [hb]⟩
  · cases more with
    | nil => exact .inl (by simpa using ha)
    | cons c more =>
      refine absurd ?_ hy
      rw [(List.cons.inj htail).2]
      simp

variable {a b : String}

theorem isPrefix_keyOf_iff (hne : name ≠ other) (ha : isGraphName a = true) :
    (SignatureCache.keyOf name "").toList <+: (SignatureCache.keyOf other a).toList ↔
      (SignatureCache.keyOf name "").toList <+: other.toList := by
  have hcolon : ':' ∉ a.toList := Artifact.not_mem_of_isGraphName ha (by decide)
  rw [SignatureCache.toList_keyOf, SignatureCache.toList_keyOf]
  refine ⟨?_, fun h => h.trans (List.prefix_append _ _)⟩
  rintro ⟨rest, hrest⟩
  rw [List.append_assoc] at hrest
  rcases eq_or_isPrefix_of_append_cons hcolon hrest with hsame | hprefix
  · exact absurd (String.toList_injective hsame) hne
  · exact hprefix

/-- Keys of artifacts of two schemas differ, since no name of the query language has a colon. -/
theorem keyOf_ne (hne : other ≠ name) (ha : isGraphName a = true) (hb : isGraphName b = true) :
    SignatureCache.keyOf other a ≠ SignatureCache.keyOf name b := by
  intro hkey
  -- Of two schemas with a key in common, each would have a name that begins with the other's.
  have hname := SignatureCache.isPrefix_keyOf name b
  rw [← hkey, isPrefix_keyOf_iff (Ne.symm hne) ha] at hname
  have hother := SignatureCache.isPrefix_keyOf other a
  rw [hkey, isPrefix_keyOf_iff hne hb] at hother
  have hlength := hname.length_le
  have hlength' := hother.length_le
  simp only [SignatureCache.toList_keyOf, List.length_append, List.length_cons] at hlength hlength'
  omega

theorem keeps_key_delete {key deleted : String} (h : key = deleted → s.cache.get? key = none) :
    Keeps (fun u => u.cache.get? key = s.cache.get? key) (SignatureCache.delete deleted) := by
  intro u hu
  rw [SignatureCache.get?_after_delete]
  split_ifs with hkey
  · rw [h hkey]
  · exact hu

theorem keeps_key_clear {key : String}
    (h : (SignatureCache.keyOf name "").toList <+: key.toList → s.cache.get? key = none) :
    Keeps (fun u => u.cache.get? key = s.cache.get? key) (store.clear name) := by
  refine keeps_clear (fun u hu => ?_) fun deleted hdeleted => keeps_key_delete fun hkey => h (hkey ▸ hdeleted)
  rw [after_removeAll]
  exact hu

theorem staleFiles_of_remembered (hschema : schema.Named)
    (havoid : s.cache.Avoids (store.livePlace schema.name)) {opened swapped remembered : StoreState}
    {outcomes : List Outcome} (hopen : store.openRoot s = .ok () opened)
    (hstage : store.stage schema opened = .ok outcomes swapped)
    (hremember : remember schema.name outcomes swapped = .ok () remembered) (file : String) :
    file ∈ staleFiles schema (entriesAt remembered.tree (store.livePlace schema.name)) ↔
      file ∈ staleFiles schema (entriesAt s.tree (store.livePlace schema.name)) := by
  obtain ⟨hcache, hmake⟩ := openRoot_ok hopen
  obtain ⟨draft, hdraft, rfl, hcache', hswappable, hswapped⟩ := stage_ok hschema hstage
  have hlive : opened.tree.at? (store.livePlace schema.name) = s.tree.at? (store.livePlace schema.name) := by
    rw [← grown_of_ok hmake]
    exact at?_grown fun p hp => (hswappable.apart p (mem_ways_of_backup (mem_walk_above_of_root hp))).1
  have hsame := sameAt_remember (havoid.of_path (congrArg _ (hcache'.trans hcache))) hremember
  rw [entriesAt_of_folder (hsame.tree.trans hswapped.live), mem_staleFiles_draft_iff hdraft, entriesAt,
    hlive, ← entriesAt]

/-- Storing a schema, however it goes, keeps what is remembered for another, if no stale file goes by the
name of it. -/
theorem get?_after_persist (hschema : schema.Named) (hne : schema.name ≠ other)
    (havoid : s.cache.Avoids (store.livePlace schema.name)) (ha : isGraphName a = true)
    (hstale : ∀ file ∈ staleFiles schema (entriesAt s.tree (store.livePlace schema.name)),
      SignatureCache.keyOf other a = SignatureCache.keyOf schema.name (artifactName file) →
        s.cache.get? (SignatureCache.keyOf other a) = none) :
    (after (store.persist schema) s).cache.get? (SignatureCache.keyOf other a) =
      s.cache.get? (SignatureCache.keyOf other a) := by
  let P (u : StoreState) :=
    u.cache.get? (SignatureCache.keyOf other a) = s.cache.get? (SignatureCache.keyOf other a)
  refine after_persist_of (P := P) ?_ (fun opened _ hopened => ?_)
    (fun opened outcomes swapped _ hstage hswapped => ?_)
    (fun opened outcomes swapped remembered hopen hstage hremember hremembered => ?_)
  · show (after store.openRoot s).cache.get? _ = _
    rw [Store.after_openRoot]
  · exact (congrArg (SignatureCache.get? · _) (cache_after_stage hschema opened)).trans hopened
  · obtain ⟨draft, hdraft, rfl, -⟩ := stage_ok hschema hstage
    refine Keeps.each (P := P) (fun o ho u hu => ?_) swapped hswapped
    have hmem := definition_mem hdraft (List.mem_filter.mp ho).1
    have hgraph : isGraphName o.name = true := (hschema.named _ _ (hschema.mem_values_iff.mp hmem)).2
    exact (SignatureCache.get?_after_put (keyOf_ne (Ne.symm hne) ha hgraph) _ u).trans hu
  · refine after_reconcile_of (P := P) hremembered fun file hfile u hu => ?_
    have hold := (staleFiles_of_remembered hschema havoid hopen hstage hremember file).mp hfile
    rcases after_deleteStale schema.name (store.livePlace schema.name) file u with hstep | hstep
    · rw [hstep]
      exact hu
    · rw [hstep]
      exact keeps_key_delete (hstale file hold) _ hu

end ClassSchema.Store
