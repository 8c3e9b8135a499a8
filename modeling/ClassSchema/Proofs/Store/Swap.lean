import ClassSchema.Proofs.Store.Staging

/-!
# Swapping a folder in

Whether a staged folder can be swapped in depends on what is on the ways of the schema, and on nothing that
is in the folder. Where the swap goes well, the live folder is the staged one, nothing is left of the old
one, and all else is as it was.
-/

namespace ClassSchema.Store

open FileTree ClassSchema.Path

open Storing (after)

/-- The live folder of a schema can be exchanged: its path ends in a name, it and its backup are reached
through folders, neither is on the way, and no file is in the place of either. -/
structure Swappable (store : Store) (name : String) (t : FileTree) : Prop where
  named : endsInDots (store.schemaPath name) = false
  folders : ∀ p ∈ store.ways name, t.kindAt p = some true
  apart : ∀ p ∈ store.ways name, ¬ store.livePlace name <+: p ∧ ¬ store.backupPlace name <+: p
  live : t.kindAt (store.livePlace name) ≠ some false
  backup : t.kindAt (store.backupPlace name) ≠ some false

/-- What a swap that goes well does. -/
structure Swapped (store : Store) (name : String) (es : Dict FileTree) (t t' : FileTree) : Prop where
  live : t'.at? (store.livePlace name) = some (.folder es)
  backup : ∀ p, store.backupPlace name <+: p → ¬ store.livePlace name <+: p → t'.at? p = none
  apart : ∀ p, ¬ store.livePlace name <+: p → ¬ store.backupPlace name <+: p →
    t'.contentAt p = t.contentAt p

variable {store : Store} {name staging : String} {place p : List String} {es : Dict FileTree}
  {s s' u u' : StoreState} {t t' v v' : FileTree}

/-! ### The steps -/

theorem removeAll_ok {path : String} (h : removeAll path s = .ok () s') :
    s'.cache = s.cache ∧ s.tree.removeFolder path = (.ok (), s'.tree) := by
  rw [removeAll] at h
  split at h
  · next tree hremove =>
    obtain ⟨-, rfl⟩ := EStateM.Result.ok.inj h
    exact ⟨rfl, hremove⟩
  · cases h

theorem after_removeAll (path : String) (s : StoreState) :
    after (removeAll path) s = { s with tree := (s.tree.removeFolder path).2 } := by
  rw [after, removeAll]
  rcases s.tree.removeFolder path with ⟨_ | _, tree⟩ <;> rfl

theorem moveTo_ok {schema move source target : String}
    (h : moveTo schema move source target s = .ok () s') :
    s'.cache = s.cache ∧ s.tree.rename source target = some s'.tree := by
  rw [moveTo] at h
  split at h
  · next tree hrename =>
    obtain ⟨-, rfl⟩ := EStateM.Result.ok.inj h
    exact ⟨rfl, hrename⟩
  · cases h

theorem moveTo_eq {schema move source target : String} (h : s.tree.rename source target = some t) :
    moveTo schema move source target s = .ok () { s with tree := t } := by
  rw [moveTo, h]

theorem orUndo_ok {α : Type} {work : Storing α} {undo : Storing Unit} {a : α}
    (h : work.orUndo undo s = .ok a s') : work s = .ok a s' := by
  rw [Storing.orUndo] at h
  split at h
  · next hwork =>
    obtain ⟨rfl, rfl⟩ := EStateM.Result.ok.inj h
    exact hwork
  · split at h <;> cases h

theorem orUndo_of_ok {α : Type} {work : Storing α} {a : α} (h : work s = .ok a s') (undo : Storing Unit) :
    work.orUndo undo s = .ok a s' := by
  rw [Storing.orUndo, h]

theorem orUndo_of_error {α : Type} {work : Storing α} {e : Fault} (h : work s = .error e s')
    (undo : Storing Unit) : work.orUndo undo s = .error e (after undo s') := by
  rw [Storing.orUndo, h, after]
  dsimp only
  cases undo s' <;> rfl

theorem has_backupPath (h : ∀ p ∈ walk (above (store.backupPath name)) [], t.kindAt p = some true) :
    t.has (store.backupPath name) = (t.at? (store.backupPlace name)).isSome := by
  obtain ⟨last, hpieces, hproper⟩ := exists_pieces_backupPath store name
  rw [has, lookAt?_of_walk hpieces hproper h, backupPlace, hpieces, arrival_append,
    ← step_of_proper hproper]
  rfl

theorem after_clearBackup (store : Store) (name : String) (s : StoreState) :
    after (store.clearBackup name) s = { s with tree := (s.tree.removeFolder (store.backupPath name)).2 } ∨
      after (store.clearBackup name) s = s := by
  by_cases hhas : s.tree.has (store.backupPath name) = true
  · left
    rw [← after_removeAll, after, after, clearBackup, if_pos hhas]
  · right
    rw [after, clearBackup, if_neg hhas]

theorem contentAt_after_clearBackup (h : ¬ store.backupPlace name <+: p) (s : StoreState) :
    (after (store.clearBackup name) s).tree.contentAt p = s.tree.contentAt p := by
  rcases after_clearBackup store name s with hafter | hafter <;> rw [hafter]
  exact contentAt_removeFolder h

theorem clearBackup_ok (h : store.clearBackup name s = .ok () s')
    (hwalk : ∀ p ∈ walk (above (store.backupPath name)) [], s'.tree.kindAt p = some true) :
    s'.cache = s.cache ∧ s.tree.kindAt (store.backupPlace name) ≠ some false ∧
      ∀ p, store.backupPlace name <+: p → s'.tree.at? p = none := by
  have hbelow (t : FileTree) (hnone : t.at? (store.backupPlace name) = none) :
      ∀ p, store.backupPlace name <+: p → t.at? p = none := by
    rintro p ⟨below, rfl⟩
    rw [at?_append, hnone, Option.bind_none]
  have hdots := endsInDots_backupPath store name
  rw [clearBackup] at h
  split at h
  · obtain ⟨hcache, hremove⟩ := removeAll_ok h
    refine ⟨hcache, by rw [backupPlace, (removeFolder_ok hremove).1]; simp, hbelow _ ?_⟩
    rw [eq_remove_of_walk hremove hdots hwalk]
    refine at?_remove_self fun hnil => ?_
    obtain ⟨x, -, -, harrival⟩ := exists_arrival_eq hdots
    rw [harrival] at hnil
    simp at hnil
  · next hhas =>
    obtain ⟨-, rfl⟩ := EStateM.Result.ok.inj h
    have hnone : s.tree.at? (store.backupPlace name) = none := by
      rw [has_backupPath hwalk] at hhas
      simpa using hhas
    exact ⟨rfl, by simp [kindAt, hnone], hbelow _ hnone⟩

theorem exists_clearBackup
    (hwalk : ∀ p ∈ walk (above (store.backupPath name)) [],
      s.tree.kindAt p = some true ∧ ¬ store.backupPlace name <+: p)
    (hkind : s.tree.kindAt (store.backupPlace name) ≠ some false) :
    ∃ s', store.clearBackup name s = .ok () s' := by
  rw [clearBackup]
  split
  · next hhas =>
    rw [has_backupPath fun p hp => (hwalk p hp).1, Option.isSome_iff_exists] at hhas
    obtain ⟨v, hv⟩ := hhas
    have hfolder : s.tree.kindAt (store.backupPlace name) = some true := by
      rw [kindAt, hv] at hkind ⊢
      cases v with
      | file text => exact absurd rfl hkind
      | folder es => rfl
    rw [removeAll, removeFolder_of_walk (endsInDots_backupPath store name) hwalk hfolder]
    exact ⟨_, rfl⟩
  · exact ⟨s, rfl⟩

theorem exchange_ok (h : store.exchange name staging s = .ok () s') : s'.cache = s.cache ∧
    (s.tree.has (store.schemaPath name) = false ∧
        s.tree.rename staging (store.schemaPath name) = some s'.tree ∨
      ∃ aside entered, s.tree.rename (store.schemaPath name) (store.backupPath name) = some aside ∧
        aside.rename staging (store.schemaPath name) = some entered ∧
        entered.removeFolder (store.backupPath name) = (.ok (), s'.tree)) := by
  rw [exchange] at h
  split at h
  · obtain ⟨⟨⟩, s₁, haside, h⟩ := Storing.bind_ok_iff.mp h
    obtain ⟨⟨⟩, s₂, henter, hremove⟩ := Storing.bind_ok_iff.mp h
    obtain ⟨hcache₁, haside⟩ := moveTo_ok haside
    obtain ⟨hcache₂, henter⟩ := moveTo_ok (orUndo_ok henter)
    obtain ⟨hcache, hremove⟩ := removeAll_ok hremove
    exact ⟨hcache.trans (hcache₂.trans hcache₁), .inr ⟨_, _, haside, henter, hremove⟩⟩
  · next hhas =>
    obtain ⟨hcache, henter⟩ := moveTo_ok h
    exact ⟨hcache, .inl ⟨by simpa using hhas, henter⟩⟩

/-! ### Places -/

theorem mem_ways_of_backup (h : p ∈ walk (above (store.backupPath name)) []) : p ∈ store.ways name :=
  List.mem_append_left _ h

theorem mem_ways_of_live (h : p ∈ walk (above (store.schemaPath name)) []) : p ∈ store.ways name :=
  List.mem_append_right _ h

theorem prefix_iff_eq {q : List String} (h : ¬ p <+: q.dropLast) : p <+: q ↔ p = q := by
  refine ⟨fun hp => ?_, fun hp => hp ▸ List.prefix_rfl⟩
  by_cases hq : q = []
  · rw [hq] at hp ⊢
    exact List.prefix_nil.mp hp
  · rw [← List.dropLast_append_getLast hq, List.prefix_concat_iff] at hp
    rcases hp with hp | hp
    · rw [hp, List.dropLast_append_getLast hq]
    · exact absurd hp h

theorem dropLast_livePlace (hdots : endsInDots (store.schemaPath name) = false) :
    (store.livePlace name).dropLast ∈ store.ways name := by
  rw [livePlace, dropLast_arrival hdots]
  exact mem_ways_of_live (arrival_mem_walk _ _)

theorem dropLast_backupPlace (store : Store) (name : String) :
    (store.backupPlace name).dropLast ∈ store.ways name := by
  rw [backupPlace, dropLast_arrival (endsInDots_backupPath store name)]
  exact mem_ways_of_backup (arrival_mem_walk _ _)

theorem Slot.not_prefix_live (h : Slot store name staging place t) : ¬ place <+: store.livePlace name :=
  h.apart _ (.inl (arrival_mem_walk _ _))

theorem Slot.not_prefix_backup (h : Slot store name staging place t) :
    ¬ place <+: store.backupPlace name :=
  h.apart _ (.inr (arrival_mem_walk _ _))

theorem Slot.not_prefix_ways (h : Slot store name staging place t) (hp : p ∈ store.ways name) :
    ¬ place <+: p := by
  rcases List.mem_append.mp hp with hp | hp
  · exact h.apart p (.inr (mem_walk_of_above hp))
  · exact h.apart p (.inl (mem_walk_of_above hp))

theorem Slot.dropLast_eq (h : Slot store name staging place t) :
    place.dropLast = (store.backupPlace name).dropLast := by
  rw [h.arrival_eq, dropLast_arrival h.dots, h.above_eq, backupPlace,
    dropLast_arrival (endsInDots_backupPath store name)]

theorem Slot.not_prefix (h : Slot store name staging place t) {q : List String}
    (hq : ¬ q <+: (store.backupPlace name).dropLast) (hne : place ≠ q) : ¬ q <+: place := by
  rw [prefix_iff_eq (by rwa [h.dropLast_eq])]
  exact Ne.symm hne

theorem Slot.ne_of_not_prefix {q : List String} (h : ¬ place <+: q) : place ≠ q := by
  rintro rfl
  exact h List.prefix_rfl

theorem not_backup_prefix_dropLast (store : Store) (name : String) :
    ¬ store.backupPlace name <+: (store.backupPlace name).dropLast := by
  obtain ⟨x, -, -, harrival⟩ := exists_arrival_eq (endsInDots_backupPath store name)
  intro hp
  have hle := hp.length_le
  rw [backupPlace, harrival] at hle
  simp at hle

theorem Slot.backup_not_prefix (h : Slot store name staging place t) :
    ¬ store.backupPlace name <+: place :=
  h.not_prefix (not_backup_prefix_dropLast store name) (Slot.ne_of_not_prefix h.not_prefix_backup)

/-! ### What a swap does -/

/-- A staging folder is there, no backup is, and all else is as it was. -/
structure Staged (store : Store) (name : String) (place : List String) (es : Dict FileTree)
    (t t' : FileTree) : Prop where
  staging : t'.at? place = some (.folder es)
  backup : ∀ p, store.backupPlace name <+: p → t'.at? p = none
  apart : ∀ p, ¬ place <+: p → ¬ store.backupPlace name <+: p → t'.contentAt p = t.contentAt p

theorem at?_after_clearBackup (h : ¬ store.backupPlace name <+: p) (h' : ¬ p <+: store.backupPlace name)
    (s : StoreState) : (after (store.clearBackup name) s).tree.at? p = s.tree.at? p := by
  rcases after_clearBackup store name s with hafter | hafter <;> rw [hafter]
  exact at?_removeFolder h h'

theorem Slot.staged (hslot : Slot store name staging place s.tree)
    (h : store.clearBackup name (withStaging place s es) = .ok () s')
    (hways : ∀ p ∈ store.ways name, s'.tree.kindAt p = some true) :
    s'.cache = s.cache ∧ s.tree.kindAt (store.backupPlace name) ≠ some false ∧
      Staged store name place es s.tree s'.tree := by
  obtain ⟨hcache, hkind, hgone⟩ := clearBackup_ok h fun p hp => hways p (mem_ways_of_backup hp)
  refine ⟨hcache, ?_, ?_, hgone, fun p hp hback => ?_⟩
  · rwa [withStaging, kindAt_put_of_not_below hslot.not_prefix_backup] at hkind
  · rw [← Storing.after_of_ok h, at?_after_clearBackup hslot.backup_not_prefix hslot.not_prefix_backup,
      at?_withStaging hslot.kindAt_dropLast]
  · rw [← Storing.after_of_ok h, contentAt_after_clearBackup hback]
    exact contentAt_put_of_not_below hp

theorem Slot.ways_of_rename (hslot : Slot store name staging place t)
    (h : v.rename staging (store.schemaPath name) = some v') : endsInDots (store.schemaPath name) = false ∧
      ∀ p ∈ store.ways name, v.kindAt p = some true := by
  obtain ⟨-, hdots, hstaging, hlive, -⟩ := rename_ok h
  rw [hslot.above_eq] at hstaging
  exact ⟨hdots, fun p hp => (List.mem_append.mp hp).elim (hstaging p) (hlive p)⟩

theorem ways_of_exchange (hslot : Slot store name staging place s.tree)
    (h : store.exchange name staging u = .ok () u') : endsInDots (store.schemaPath name) = false ∧
      ∀ p ∈ store.ways name, u.tree.kindAt p = some true := by
  obtain ⟨-, ⟨-, henter⟩ | ⟨aside, entered, haside, -⟩⟩ := exchange_ok h
  · exact hslot.ways_of_rename henter
  · obtain ⟨hdots, -, hlive, hbackup, -⟩ := rename_ok haside
    exact ⟨hdots, fun p hp => (List.mem_append.mp hp).elim (hbackup p) (hlive p)⟩

theorem Slot.moved (hslot : Slot store name staging place t)
    (hstaging : v.at? place = some (.folder es))
    (h : v.rename staging (store.schemaPath name) = some v') :
    v.kindAt (store.livePlace name) ≠ some false ∧ Moved place (store.livePlace name) v v' := by
  obtain ⟨-, -, -, -, -, ⟨hsame, -⟩ | ⟨-, ⟨moved, hthere, hway⟩, hmoved⟩⟩ := rename_ok h
  · rw [← hslot.arrival_eq] at hsame
    exact absurd hsame (Slot.ne_of_not_prefix hslot.not_prefix_live)
  · rw [← hslot.arrival_eq] at hthere hmoved
    obtain rfl := Option.some.inj (hstaging.symm.trans hthere)
    refine ⟨fun hfile => ?_, hmoved⟩
    rw [← livePlace] at hway
    obtain ⟨old, hold, hkind⟩ := Option.map_eq_some_iff.mp hfile
    rw [hold] at hway
    cases old with
    | file text => cases hway
    | folder fs => cases hkind

theorem has_schemaPath (hdots : endsInDots (store.schemaPath name) = false)
    (hways : ∀ p ∈ store.ways name, t.kindAt p = some true)
    (hfile : t.kindAt (store.livePlace name) ≠ some false) :
    t.has (store.schemaPath name) = (t.at? (store.livePlace name)).isSome := by
  cases hlive : t.at? (store.livePlace name) with
  | none => exact has_eq_false_of_none hlive
  | some old =>
    refine has_of_locate? (locate?_of_folder hdots (fun p hp => hways p (mem_ways_of_live hp)) ?_)
    rw [← livePlace]
    cases old with
    | file text => exact absurd (by rw [kindAt, hlive]; rfl) hfile
    | folder es => rw [kindAt, hlive]; rfl

theorem Slot.entered (hslot : Slot store name staging place t) (hstaging : v.at? place = some (.folder es))
    (hsame : ∀ p, ¬ place <+: p → ¬ store.livePlace name <+: p → ¬ store.backupPlace name <+: p →
      v.contentAt p = t.contentAt p)
    (hmoved : Moved place (store.livePlace name) v v') :
    v'.at? (store.livePlace name) = some (.folder es) ∧
      (∀ p, store.backupPlace name <+: p → ¬ store.livePlace name <+: p →
        v'.contentAt p = v.contentAt p) ∧
        ∀ p, ¬ store.livePlace name <+: p → ¬ store.backupPlace name <+: p →
          v'.contentAt p = t.contentAt p := by
  refine ⟨?_, fun p hback hlive => ?_, fun p hlive hback => ?_⟩
  · have hlive := hmoved.moved []
    rwa [List.append_nil, List.append_nil, hstaging] at hlive
  · refine hmoved.kept p (fun hp => ?_) hlive
    rcases List.prefix_or_prefix_of_prefix hp hback with hp | hp
    · exact hslot.not_prefix_backup hp
    · exact hslot.backup_not_prefix hp
  · by_cases hp : place <+: p
    · obtain ⟨below, rfl⟩ := hp
      rw [contentAt_eq_none_iff.mpr (hmoved.gone below), eq_comm, contentAt_eq_none_iff, at?_append,
        hslot.fresh, Option.bind_none]
    · rw [hmoved.kept p hp hlive, hsame p hp hlive hback]

theorem Staged.enter (hslot : Slot store name staging place t) (hstaged : Staged store name place es t u.tree)
    (hways : ∀ p ∈ store.ways name, u.tree.kindAt p = some true)
    (hhas : u.tree.has (store.schemaPath name) = false)
    (h : u.tree.rename staging (store.schemaPath name) = some t') :
    u.tree.at? (store.livePlace name) = none ∧ Swapped store name es t t' := by
  obtain ⟨hdots, -⟩ := hslot.ways_of_rename h
  obtain ⟨hfile, hmoved⟩ := hslot.moved hstaged.staging h
  have hmissing : u.tree.at? (store.livePlace name) = none := by
    rw [has_schemaPath hdots hways hfile] at hhas
    simpa using hhas
  obtain ⟨hlive, hbelow, hapart⟩ := hslot.entered hstaged.staging
    (fun p hp _ hback => hstaged.apart p hp hback) hmoved
  refine ⟨hmissing, hlive, fun p hp hp' => ?_, hapart⟩
  rw [← contentAt_eq_none_iff, hbelow p hp hp', contentAt_eq_none_iff]
  exact hstaged.backup p hp

theorem Staged.at?_aside (hslot : Slot store name staging place t) (hstaged : Staged store name place es t v)
    (haway : Moved (store.livePlace name) (store.backupPlace name) v v') :
    v'.at? place = some (.folder es) := by
  have hnotLive : ¬ store.livePlace name <+: place :=
    hslot.not_prefix (fun hp => haway.apart.1 (hp.trans (List.dropLast_prefix _)))
      (Slot.ne_of_not_prefix hslot.not_prefix_live)
  rw [haway.same place hnotLive hslot.not_prefix_live hslot.backup_not_prefix hslot.not_prefix_backup,
    hstaged.staging]

/-- The folder that was moved aside is still there when the staged one has entered. -/
theorem Slot.kindAt_aside (hslot : Slot store name staging place t) {aside entered : FileTree}
    (haway : Moved (store.livePlace name) (store.backupPlace name) v aside)
    (hmoved : Moved place (store.livePlace name) aside entered) :
    entered.kindAt (store.backupPlace name) = v.kindAt (store.livePlace name) := by
  have hold : aside.at? (store.backupPlace name) = v.at? (store.livePlace name) := by
    simpa using haway.moved []
  rw [kindAt_eq_of_contentAt (hmoved.kept _ hslot.not_prefix_backup haway.apart.1), kindAt, hold, ← kindAt]

/-- What it comes to where the live folder is moved aside first and taken away in the end. -/
theorem Staged.enterAside (hslot : Slot store name staging place t)
    (hstaged : Staged store name place es t u.tree)
    (hways : ∀ p ∈ store.ways name, u.tree.kindAt p = some true) {aside entered : FileTree}
    (haside : u.tree.rename (store.schemaPath name) (store.backupPath name) = some aside)
    (henter : aside.rename staging (store.schemaPath name) = some entered)
    (hremove : entered.removeFolder (store.backupPath name) = (.ok (), t')) :
    (∀ p ∈ store.ways name, ¬ store.livePlace name <+: p) ∧
      t.kindAt (store.livePlace name) = some true ∧ Swapped store name es t t' := by
  have hback : ∀ p ∈ store.ways name, ¬ store.backupPlace name <+: p := fun p hp =>
    not_prefix_of_none (hstaged.backup _ List.prefix_rfl) (hways p hp)
  obtain ⟨-, -, -, -, hthere, ⟨hsame, -⟩ | ⟨-, -, haway⟩⟩ := rename_ok haside
  · have hgone := hstaged.backup _ List.prefix_rfl
    rw [backupPlace, ← hsame] at hgone
    rw [hgone] at hthere
    cases hthere
  rw [← livePlace, ← backupPlace] at haway
  have hstaging := hstaged.at?_aside hslot haway
  obtain ⟨-, hasideWays⟩ := hslot.ways_of_rename henter
  have hmissing : aside.at? (store.livePlace name) = none := by simpa using haway.gone []
  have hliveWays : ∀ p ∈ store.ways name, ¬ store.livePlace name <+: p := fun p hp =>
    not_prefix_of_none hmissing (hasideWays p hp)
  have hmoved := (hslot.moved hstaging henter).2
  obtain ⟨hlive, -, hapart⟩ := hslot.entered hstaging
    (fun p hp hlive hback => (haway.kept p hlive hback).trans (hstaged.apart p hp hback)) hmoved
  -- The way to the backup is still there in the end, so the backup has been taken away as a whole.
  have hremoved : t' = entered.remove (store.backupPlace name) := by
    refine eq_remove_of_walk hremove (endsInDots_backupPath store name) fun p hp => ?_
    have hp := mem_ways_of_backup hp
    have hkept : t'.contentAt p = entered.contentAt p := by
      have hkept := contentAt_removeFolder (t := entered) (hback p hp)
      rwa [hremove] at hkept
    rw [kindAt_eq_of_contentAt hkept,
      kindAt_eq_of_contentAt (hmoved.kept p (hslot.not_prefix_ways hp) (hliveWays p hp)),
      hasideWays p hp]
  have hkind : t.kindAt (store.livePlace name) = some true := by
    have hfolder := (removeFolder_ok hremove).1
    rwa [← backupPlace, hslot.kindAt_aside haway hmoved,
      kindAt_eq_of_contentAt (hstaged.apart _ hslot.not_prefix_live haway.apart.2)] at hfolder
  refine ⟨hliveWays, hkind, ?_, fun p hp _ => ?_, fun p hp hp' => ?_⟩
  · rw [hremoved, at?_remove_of_apart haway.apart.2 haway.apart.1, hlive]
  · obtain ⟨below, rfl⟩ := hp
    rw [hremoved, at?_append, at?_remove_self, Option.bind_none]
    intro hnil
    rw [hnil] at haway
    exact haway.apart.2 List.nil_prefix
  · rw [hremoved, contentAt_remove_of_not_below hp', hapart p hp hp']

/-- A swap that goes well could be made, and it puts the staged folder in place. -/
theorem swap_ok (hslot : Slot store name staging place s.tree)
    (h : store.swap name staging (withStaging place s es) = .ok () s') :
    s'.cache = s.cache ∧ store.Swappable name s.tree ∧ store.Swapped name es s.tree s'.tree := by
  obtain ⟨⟨⟩, u, hclear, hexchange⟩ := Storing.bind_ok_iff.mp h
  obtain ⟨hdots, hways⟩ := ways_of_exchange hslot hexchange
  obtain ⟨hcache₁, hbackupKind, hstaged⟩ := hslot.staged hclear hways
  obtain ⟨hcache₂, hcases⟩ := exchange_ok hexchange
  have hback : ∀ p ∈ store.ways name, ¬ store.backupPlace name <+: p := fun p hp =>
    not_prefix_of_none (hstaged.backup _ List.prefix_rfl) (hways p hp)
  have hfolders : ∀ p ∈ store.ways name, s.tree.kindAt p = some true := by
    intro p hp
    rw [← kindAt_eq_of_contentAt (hstaged.apart p (hslot.not_prefix_ways hp) (hback p hp)), hways p hp]
  refine ⟨hcache₂.trans hcache₁, ?_⟩
  rcases hcases with ⟨hhas, henter⟩ | ⟨aside, entered, haside, henter, hremove⟩
  · obtain ⟨hmissing, hswapped⟩ := hstaged.enter hslot hways hhas henter
    refine ⟨⟨hdots, hfolders, fun p hp => ⟨not_prefix_of_none hmissing (hways p hp), hback p hp⟩, ?_,
      hbackupKind⟩, hswapped⟩
    by_cases hover : store.backupPlace name <+: store.livePlace name
    · rwa [← (prefix_iff_eq (hback _ (dropLast_livePlace hdots))).mp hover]
    · rw [← kindAt_eq_of_contentAt (hstaged.apart _ hslot.not_prefix_live hover),
        kindAt_eq_none_iff.mpr hmissing]
      simp
  · obtain ⟨hliveWays, hkind, hswapped⟩ := hstaged.enterAside hslot hways haside henter hremove
    exact ⟨⟨hdots, hfolders, fun p hp => ⟨hliveWays p hp, hback p hp⟩, by simp [hkind], hbackupKind⟩,
      hswapped⟩

/-! ### When a swap can be made -/

theorem Slot.exists_enter (hslot : Slot store name staging place t)
    (hdots : endsInDots (store.schemaPath name) = false)
    (hways : ∀ p ∈ store.ways name, v.kindAt p = some true) (hstaging : v.at? place = some (.folder es))
    (hlive : v.at? (store.livePlace name) = none) :
    ∃ v', v.rename staging (store.schemaPath name) = some v' := by
  have hsource : ∀ p ∈ walk (above staging) [], v.kindAt p = some true := by
    rw [hslot.above_eq]
    exact fun p hp => hways p (mem_ways_of_backup hp)
  have hapart := hslot.not_prefix_live
  rw [hslot.arrival_eq] at hstaging hapart
  exact exists_rename hslot.dots hdots hsource (fun p hp => hways p (mem_ways_of_live hp)) hstaging hlive
    hapart

theorem Swappable.exists_aside (h : store.Swappable name t)
    (hways : ∀ p ∈ store.ways name, v.kindAt p = some true) {old : FileTree}
    (hold : v.at? (store.livePlace name) = some old) (hbackup : v.at? (store.backupPlace name) = none) :
    ∃ aside, v.rename (store.schemaPath name) (store.backupPath name) = some aside ∧
      Moved (store.livePlace name) (store.backupPlace name) v aside := by
  have hne : store.livePlace name ≠ store.backupPlace name := by
    intro hsame
    rw [hsame, hbackup] at hold
    cases hold
  have hinto : ¬ store.livePlace name <+: store.backupPlace name :=
    mt (prefix_iff_eq (h.apart _ (dropLast_backupPlace store name)).1).mp hne
  obtain ⟨aside, haside⟩ := exists_rename h.named (endsInDots_backupPath store name)
    (fun p hp => hways p (mem_ways_of_live hp)) (fun p hp => hways p (mem_ways_of_backup hp)) hold hbackup
    hinto
  exact ⟨aside, haside, moved_of_rename haside hne⟩

private theorem exists_exchange (h : store.Swappable name t) (hslot : Slot store name staging place t)
    (hstaged : Staged store name place es t u.tree)
    (hways : ∀ p ∈ store.ways name, u.tree.kindAt p = some true) :
    ∃ s', store.exchange name staging u = .ok () s' := by
  have hfile : u.tree.kindAt (store.livePlace name) ≠ some false := by
    by_cases hover : store.backupPlace name <+: store.livePlace name
    · simp [kindAt, hstaged.backup _ hover]
    · rw [kindAt_eq_of_contentAt (hstaged.apart _ hslot.not_prefix_live hover)]
      exact h.live
  have hlocated := has_schemaPath h.named hways hfile
  rw [exchange]
  split
  · next hhas =>
    rw [hhas, eq_comm, Option.isSome_iff_exists] at hlocated
    obtain ⟨old, hold⟩ := hlocated
    obtain ⟨aside, haside, haway⟩ := h.exists_aside hways hold (hstaged.backup _ List.prefix_rfl)
    have hasideWays : ∀ p ∈ store.ways name, aside.kindAt p = some true := by
      intro p hp
      rw [kindAt_eq_of_contentAt (haway.kept p (h.apart p hp).1 (h.apart p hp).2), hways p hp]
    have hgone : aside.at? (store.livePlace name) = none := by simpa using haway.gone []
    have hstaging := hstaged.at?_aside hslot haway
    obtain ⟨entered, henter⟩ := hslot.exists_enter h.named hasideWays hstaging hgone
    have hmoved := (hslot.moved hstaging henter).2
    have hfolder : entered.kindAt (store.backupPlace name) = some true := by
      rw [hslot.kindAt_aside haway hmoved]
      rw [kindAt, hold] at hfile ⊢
      simpa using hfile
    have hremove := removeFolder_of_walk (t := entered) (endsInDots_backupPath store name) (fun p hp => by
      have hp := mem_ways_of_backup hp
      refine ⟨?_, (h.apart p hp).2⟩
      rw [kindAt_eq_of_contentAt (hmoved.kept p (hslot.not_prefix_ways hp) (h.apart p hp).1),
        hasideWays p hp]) hfolder
    refine ⟨{ u with tree := entered.remove (store.backupPlace name) }, Storing.bind_ok_iff.mpr ⟨(), _,
      moveTo_eq haside, Storing.bind_ok_iff.mpr ⟨(), _, orUndo_of_ok (moveTo_eq henter) _, ?_⟩⟩⟩
    rw [removeAll, hremove]
    rfl
  · next hhas =>
    have hnone : u.tree.at? (store.livePlace name) = none := by simpa [hlocated] using hhas
    obtain ⟨t', henter⟩ := hslot.exists_enter h.named hways hstaged.staging hnone
    exact ⟨_, moveTo_eq henter⟩

/-- Whether a swap can be made does not depend on what is in the staged folder. -/
theorem Swappable.exists_swap (h : store.Swappable name s.tree)
    (hslot : Slot store name staging place s.tree) (es : Dict FileTree) :
    ∃ s', store.swap name staging (withStaging place s es) = .ok () s' := by
  have hkept (p : List String) (hp : p ∈ store.ways name) :
      (withStaging place s es).tree.kindAt p = some true := by
    rw [withStaging, kindAt_put_of_not_below (hslot.not_prefix_ways hp), h.folders p hp]
  have hbackup : (withStaging place s es).tree.kindAt (store.backupPlace name) ≠ some false := by
    rw [withStaging, kindAt_put_of_not_below hslot.not_prefix_backup]
    exact h.backup
  obtain ⟨u, hclear⟩ := exists_clearBackup
    (fun p hp => ⟨hkept p (mem_ways_of_backup hp), (h.apart p (mem_ways_of_backup hp)).2⟩) hbackup
  have hways : ∀ p ∈ store.ways name, u.tree.kindAt p = some true := by
    intro p hp
    rw [← Storing.after_of_ok hclear,
      kindAt_eq_of_contentAt (contentAt_after_clearBackup (h.apart p hp).2 _), hkept p hp]
  obtain ⟨-, -, hstaged⟩ := hslot.staged hclear hways
  refine (exists_exchange h hslot hstaged hways).imp fun s' hexchange => ?_
  exact Storing.bind_ok_iff.mpr ⟨(), u, hclear, hexchange⟩

theorem Swappable.located (h : store.Swappable name t) : store.Located name t where
  named := h.named
  folders := fun p hp => ⟨h.folders p (mem_ways_of_live hp), (h.apart p (mem_ways_of_live hp)).1⟩

theorem Swappable.of_kindAt (h : store.Swappable name t) (hfolders : ∀ p ∈ store.ways name,
      t'.kindAt p = some true)
    (hlive : t'.kindAt (store.livePlace name) ≠ some false)
    (hbackup : t'.kindAt (store.backupPlace name) ≠ some false) : store.Swappable name t' :=
  ⟨h.named, hfolders, h.apart, hlive, hbackup⟩

theorem Swapped.swappable (h : store.Swapped name es t t') (hs : store.Swappable name t) :
    store.Swappable name t' := by
  have hlive : t'.kindAt (store.livePlace name) = some true := by
    rw [kindAt, h.live]
    rfl
  refine hs.of_kindAt (fun p hp => ?_) (by simp [hlive]) ?_
  · rw [kindAt_eq_of_contentAt (h.apart p (hs.apart p hp).1 (hs.apart p hp).2), hs.folders p hp]
  · by_cases hover : store.livePlace name <+: store.backupPlace name
    · rw [← (prefix_iff_eq (hs.apart _ (dropLast_backupPlace store name)).1).mp hover, hlive]
      simp
    · rw [kindAt, h.backup _ List.prefix_rfl hover]
      simp

theorem swappable_of_plain (hplain : isPlainName name = true)
    (hrooted : ∀ p ∈ walk (pieces store.root) [], t.kindAt p = some true ∧
      ¬ store.livePlace name <+: p ∧ ¬ store.backupPlace name <+: p)
    (hlive : t.kindAt (store.livePlace name) ≠ some false)
    (hbackup : t.kindAt (store.backupPlace name) ≠ some false) : store.Swappable name t where
  named := endsInDots_of_plain store hplain
  folders := fun p hp => (hrooted p ((mem_ways_of_plain store hplain).mp hp)).1
  apart := fun p hp => (hrooted p ((mem_ways_of_plain store hplain).mp hp)).2
  live := hlive
  backup := hbackup

/-! ### What a swap leaves alone -/

theorem keeps_swap {P : StoreState → Prop}
    (hremove : Storing.Keeps P (removeAll (store.backupPath name)))
    (haside : ∀ move, Storing.Keeps P (moveTo name move (store.schemaPath name) (store.backupPath name)))
    (henter : ∀ move, Storing.Keeps P (moveTo name move staging (store.schemaPath name)))
    (hback : ∀ move, Storing.Keeps P (moveTo name move (store.backupPath name) (store.schemaPath name))) :
    Storing.Keeps P (store.swap name staging) := by
  have hclear : Storing.Keeps P (store.clearBackup name) :=
    .ite (fun s => s.tree.has (store.backupPath name)) hremove (Storing.keeps_pure ())
  have hexchange : Storing.Keeps P (store.exchange name staging) := by
    unfold exchange
    refine .ite (fun s => s.tree.has (store.schemaPath name)) ?_ (henter _)
    refine (haside _).bind fun _ _ u _ hu => ?_
    exact ((henter _).orUndo (hback _)).bind (fun _ _ u₁ _ hu₁ => hremove u₁ hu₁) u hu
  exact hclear.bind fun _ _ u _ hu => hexchange u hu

theorem keeps_cache_removeAll (path : String) (c : SignatureCache) :
    Storing.Keeps (fun u => u.cache = c) (removeAll path) := by
  intro u hu
  rw [after_removeAll]
  exact hu

theorem keeps_cache_moveTo (schema move source target : String) (c : SignatureCache) :
    Storing.Keeps (fun u => u.cache = c) (moveTo schema move source target) := by
  intro u hu
  rw [after, moveTo]
  cases u.tree.rename source target <;> exact hu

theorem keeps_content_removeAll {path : String} (h : ¬ arrival (pieces path) [] <+: p)
    (content : Option (Option String)) :
    Storing.Keeps (fun u => u.tree.contentAt p = content) (removeAll path) := by
  intro u hu
  rw [after_removeAll]
  exact (contentAt_removeFolder h).trans hu

theorem keeps_content_moveTo {schema move source target : String}
    (hsource : ¬ arrival (pieces source) [] <+: p) (htarget : ¬ arrival (pieces target) [] <+: p)
    (content : Option (Option String)) :
    Storing.Keeps (fun u => u.tree.contentAt p = content) (moveTo schema move source target) := by
  intro u hu
  rw [after, moveTo]
  cases hrename : u.tree.rename source target with
  | none => exact hu
  | some t => exact (contentAt_rename hrename hsource htarget).trans hu

/-- A swap changes nothing apart from the three folders. -/
theorem keeps_content_swap (hlive : ¬ store.livePlace name <+: p) (hbackup : ¬ store.backupPlace name <+: p)
    (hstaging : ¬ arrival (pieces staging) [] <+: p) (content : Option (Option String)) :
    Storing.Keeps (fun u => u.tree.contentAt p = content) (store.swap name staging) :=
  keeps_swap (keeps_content_removeAll hbackup content)
    (fun _ => keeps_content_moveTo hlive hbackup content)
    (fun _ => keeps_content_moveTo hstaging hlive content)
    (fun _ => keeps_content_moveTo hbackup hlive content)

end ClassSchema.Store
