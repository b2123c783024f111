import HdmiLos.Build.Manifest
import HdmiLos.Separated.Proofs.FieldsProofs

/-!
# Projects in directories of their own

The paths of a prepared manifest are distinct as texts, and a directory is determined by the
components of the path. So the directories are distinct exactly if no path is spelt in two ways.
-/

namespace HdmiLos.Build

open Separated List

/-! ## The paths of a prepared manifest -/

theorem nodup_of_length_dedup {α : Type} [DecidableEq α] {l : List α}
    (h : l.dedup.length = l.length) : l.Nodup := by
  have hself : l.dedup = l := (dedup_sublist l).eq_of_length h
  rw [← hself]
  exact nodup_dedup l

theorem addItems_paths {paths : List Text} {items : List Item} {added : List Project}
    (h : addItems paths items = .ok added) (hpaths : paths.Nodup) :
    (added.map Project.pathText).Nodup ∧ ∀ p ∈ added, p.pathText ∉ paths := by
  induction items generalizing paths added with
  | nil =>
    cases h
    simp
  | cons item items ih =>
    rw [addItems] at h
    split at h
    · cases h
    split at h
    · cases h
    case isFalse hnew =>
      have hnew' : item.path ∉ paths := by simpa using hnew
      cases hrest : addItems (item.path :: paths) items with
      | error e =>
        rw [hrest] at h
        cases h
      | ok rest =>
        rw [hrest] at h
        cases h
        obtain ⟨hnodup, hfresh⟩ := ih hrest (nodup_cons.mpr ⟨hnew', hpaths⟩)
        have hpath : item.project.pathText = item.path := rfl
        constructor
        · rw [map_cons, nodup_cons, hpath]
          refine ⟨fun hmem => ?_, hnodup⟩
          obtain ⟨p, hp, heq⟩ := mem_map.mp hmem
          exact hfresh p hp (heq ▸ mem_cons_self)
        · intro p hp
          rcases mem_cons.mp hp with rfl | hp
          · rwa [hpath]
          · exact fun hmem => hfresh p hp (mem_cons_of_mem _ hmem)

variable {manifest : Manifest}

theorem prepared_paths {prepared : Manifest} {profile : Profile}
    (h : prepareBuildManifest manifest profile = .ok prepared) :
    (prepared.projects.map Project.pathText).Nodup := by
  rw [prepareBuildManifest] at h
  split at h
  · cases h
  case isFalse hlength =>
    have hcaptured : (manifest.projects.map Project.pathText).Nodup := by
      refine nodup_of_length_dedup ?_
      rw [length_map]
      simpa using hlength
    split at h
    · cases h
    split at h
    · cases h
    split at h
    · cases h
    split at h
    · cases h
    case _ items _ _ =>
      cases hadded : addItems (manifest.projects.map Project.pathText) items with
      | error e =>
        rw [hadded] at h
        cases h
      | ok added =>
        rw [hadded] at h
        cases h
        obtain ⟨hnodup, hfresh⟩ := addItems_paths hadded hcaptured
        rw [map_append]
        refine nodup_append'.mpr ⟨hcaptured, hnodup, ?_⟩
        intro path hpath hpath'
        obtain ⟨p, hp, rfl⟩ := mem_map.mp hpath'
        exact hfresh p hp hpath

/-! ## Directories -/

theorem mem_parts {path part : Text} (h : part ∈ parts path) :
    part ≠ [] ∧ ∀ c ∈ part, (c == '/') = false :=
  mem_fields (mem_filter.mp h).1

theorem joined_injective {components components' : List Text}
    (hall : ∀ part ∈ components, part ≠ [] ∧ ∀ c ∈ part, (c == '/') = false)
    (hall' : ∀ part ∈ components', part ≠ [] ∧ ∀ c ∈ part, (c == '/') = false)
    (h : joined '/' components = joined '/' components') : components = components' := by
  have hfields := congrArg (fields (· == '/')) h
  rwa [fields_joined rfl (fun part hpart => (hall part hpart).1) fun part hpart => (hall part hpart).2,
    fields_joined rfl (fun part hpart => (hall' part hpart).1)
      fun part hpart => (hall' part hpart).2] at hfields

theorem absolute_injective (tree : Tree) {path path' : Text}
    (h : absolute (tree.components ++ parts path) = absolute (tree.components ++ parts path')) :
    parts path = parts path' := by
  have hall : ∀ path : Text, ∀ part ∈ tree.components ++ parts path,
      part ≠ [] ∧ ∀ c ∈ part, (c == '/') = false := by
    intro path part hpart
    rcases mem_append.mp hpart with hpart | hpart
    · exact tree.plain part hpart
    · exact mem_parts hpart
  exact append_cancel_left (joined_injective (hall path) (hall path') (List.cons.inj h).2)

/-! ## The items of the workers -/

theorem syncItem_ok {tree : Tree} {defaultRemote : Text} {p : Project} {item : SyncItem}
    (h : syncItem tree manifest defaultRemote p = .ok item) :
    item.path = joined '/' (parts p.pathText) ∧
      item.target = absolute (tree.components ++ parts p.pathText) := by
  rw [syncItem] at h
  split at h
  · cases h
  split at h
  · cases h
  split at h
  · cases h
  split at h
  · cases h
  · cases h
    exact ⟨rfl, rfl⟩

theorem map_of_mapM_ok {ε α β γ : Type} {f : α → Except ε β} {g : β → γ} {k : α → γ}
    (hf : ∀ x y, f x = .ok y → g y = k x) {l : List α} {l' : List β} (h : l.mapM f = .ok l') :
    l'.map g = l.map k := by
  induction l generalizing l' with
  | nil =>
    cases h
    rfl
  | cons x l ih =>
    rw [mapM_cons] at h
    cases hx : f x with
    | error e =>
      rw [hx] at h
      cases h
    | ok y =>
      rw [hx] at h
      cases hl : l.mapM f with
      | error e =>
        rw [hl] at h
        cases h
      | ok rest =>
        rw [hl] at h
        cases h
        rw [map_cons, map_cons, hf x y hx, ih hl]

theorem syncItems_ok {tree : Tree} {items : List SyncItem}
    (h : syncItems tree manifest = .ok items) :
    items.map SyncItem.path = manifest.projects.map (fun p => joined '/' (parts p.pathText)) ∧
      items.map SyncItem.target =
        manifest.projects.map fun p => absolute (tree.components ++ parts p.pathText) := by
  rw [syncItems] at h
  split at h
  · cases h
  split at h
  · cases h
  · exact ⟨map_of_mapM_ok (fun _ _ hp => (syncItem_ok hp).1) h,
      map_of_mapM_ok (fun _ _ hp => (syncItem_ok hp).2) h⟩

/-! ## The recorded map -/

theorem foldl_setCompleted {completed : List (Text × Text)} {finished : List SyncItem}
    (h : (completed.map Prod.fst ++ finished.map SyncItem.path).Nodup) :
    finished.foldl setCompleted completed =
      completed ++ finished.map fun item => (item.path, item.revision) := by
  induction finished generalizing completed with
  | nil => simp
  | cons item finished ih =>
    have hnew : item.path ∉ completed.map Prod.fst := by
      intro hmem
      rw [map_cons] at h
      exact (nodup_append'.mp h).2.2 hmem mem_cons_self
    have hset : setCompleted completed item = completed ++ [(item.path, item.revision)] := by
      rw [setCompleted, if_neg]
      simpa using hnew
    rw [foldl_cons, hset, ih (by simpa using h)]
    simp

theorem recorded_of_nodup {finished : List SyncItem} (h : (finished.map SyncItem.path).Nodup) :
    recorded finished = finished.map fun item => (item.path, item.revision) := by
  rw [recorded, foldl_setCompleted (by simpa using h), nil_append]

/-- A text that is computed from the components of the paths is another one for each project exactly
if no path is spelt in two ways. -/
theorem nodup_iff_speltOnce {projects : List Project} {f : Text → Text}
    (hpaths : (projects.map Project.pathText).Nodup)
    (hf : ∀ path path', f path = f path' ↔ parts path = parts path') :
    (projects.map fun p => f p.pathText).Nodup ↔ SpeltOnce projects := by
  have hmap : (projects.map fun p => f p.pathText) = (projects.map Project.pathText).map f := by
    rw [map_map]
    rfl
  rw [hmap, nodup_map_iff_inj_on hpaths]
  simp only [forall_mem_map, hf, SpeltOnce]

/-- The projects of a prepared manifest are checked out into directories of their own exactly if no
two of them spell one path differently. -/
theorem projects_separate (captured prepared : Manifest) (profile : Profile)
    (h : prepareBuildManifest captured profile = .ok prepared) (tree : Tree) (items : List SyncItem)
    (hitems : syncItems tree prepared = .ok items) :
    Separate items ↔ SpeltOnce prepared.projects := by
  obtain ⟨hitemPaths, htargets⟩ := syncItems_ok hitems
  have htarget : (items.map SyncItem.target).Nodup ↔ SpeltOnce prepared.projects := by
    rw [htargets]
    exact nodup_iff_speltOnce (f := fun path => absolute (tree.components ++ parts path))
      (prepared_paths h) fun path path' => ⟨absolute_injective tree, fun hparts => by rw [hparts]⟩
  have hpath : (items.map SyncItem.path).Nodup ↔ SpeltOnce prepared.projects := by
    rw [hitemPaths]
    exact nodup_iff_speltOnce (f := fun path => joined '/' (parts path)) (prepared_paths h)
      fun path path' => ⟨joined_injective (fun _ => mem_parts) fun _ => mem_parts,
        fun hparts => by rw [hparts]⟩
  refine ⟨fun hseparate => htarget.1 hseparate.targets, fun hspelt => ⟨htarget.2 hspelt, ?_⟩⟩
  intro finished hperm
  exact recorded_of_nodup ((hperm.map SyncItem.path).nodup_iff.mpr (hpath.2 hspelt))

/-! ## Two spellings of one path -/

/-- A captured manifest with the project of the display. -/
def displayManifest : Manifest where
  defaultRemote := some "github".toList
  remotes := [{ name := some "github".toList, fetch := some "..".toList }]
  projects := [{ name := some "android_hardware_qcom_display".toList
                 path := some "hardware/qcom/display".toList
                 revision := some (List.replicate 40 'a') }]

/-- A profile with one proprietary project at the given path. -/
def blobProfile (path : Text) : Profile where
  qcomDisplayPath := some "hardware/qcom/display".toList
  qcomDisplayRevision := some (List.replicate 40 'a')
  proprietaryProjects := some [{ name := "vendor_blobs".toList
                                 path := path
                                 revision := List.replicate 40 'b' }]

def buildTree : Tree where
  components := ["build".toList]
  plain := forall_mem_singleton.2 ⟨by decide, unbroken_of_any (by decide)⟩

/-- The manifest that is prepared for the profile. -/
def blobManifest (path : Text) : Manifest :=
  { displayManifest with
    remotes := addRemote displayManifest.remotes
    projects := displayManifest.projects ++
      [Item.project ⟨"vendor_blobs".toList, path, List.replicate 40 'b'⟩] }

/-- The item of the display project. -/
def displayItem : SyncItem where
  path := "hardware/qcom/display".toList
  target := "/build/hardware/qcom/display".toList
  legacyGitdir := "/build/.repo/projects/hardware/qcom/display.git".toList
  revision := List.replicate 40 'a'
  url := "https://github.com/android_hardware_qcom_display".toList

/-- The item of a proprietary project. -/
def blobItem (path : String) : SyncItem where
  path := path.toList
  target := ("/build/" ++ path).toList
  legacyGitdir := ("/build/.repo/projects/" ++ path ++ ".git").toList
  revision := List.replicate 40 'b'
  url := "https://github.com/vendor_blobs".toList

/-- A doubled slash does no harm where no other project has that path. -/
theorem projects_separate_vendor : Separate [displayItem, blobItem "vendor/blobs"] :=
  (projects_separate displayManifest (blobManifest "vendor//blobs".toList)
    (blobProfile "vendor//blobs".toList) (by decide +kernel) buildTree _ (by decide +kernel)).2
    (by decide +kernel)

/-- A proprietary project whose path is that of the display project with a doubled slash is
accepted, and both are checked out into one directory at different revisions. -/
theorem projects_collide :
    prepareBuildManifest displayManifest (blobProfile "hardware/qcom//display".toList) =
        .ok (blobManifest "hardware/qcom//display".toList) ∧
      syncItems buildTree (blobManifest "hardware/qcom//display".toList) =
        .ok [displayItem, blobItem "hardware/qcom/display"] ∧
      displayItem.target = (blobItem "hardware/qcom/display").target ∧
      displayItem.revision ≠ (blobItem "hardware/qcom/display").revision ∧
      (recorded [displayItem, blobItem "hardware/qcom/display"]).length = 1 ∧
      ¬Separate [displayItem, blobItem "hardware/qcom/display"] := by
  refine ⟨by decide +kernel, by decide +kernel, by decide +kernel, by decide +kernel,
    by decide +kernel, fun h => ?_⟩
  exact absurd h.targets (by decide +kernel)

end HdmiLos.Build
