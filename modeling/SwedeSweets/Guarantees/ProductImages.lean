import SwedeSweets.Products.Images
import SwedeSweets.Lib.Transition

namespace SwedeSweets

open Relational Fallible Transition

/-!
# Stored image files

* `Media.Consistent` — the stored files are the files of the profiles, and no file belongs to two;
* `storeImage_stores`, `changeProductImage_stores` — what is in storage when an upload raises after
  none, one or two files, and what is in it when it goes through;
* `image_files_exact` — over any sequence of changes, committed or not, the stored files are exactly
  the files that the persisted profiles refer to.
-/

/-- The files of a profile are its image and its thumbnail, when set. -/
theorem mem_files {p : ProductProfile} {f : String} :
    f ∈ p.files ↔ (f = p.image ∨ f = p.thumbnail) ∧ f ≠ "" := by
  simp [ProductProfile.files]

/-- Files are deleted by name; the blank name deletes nothing. -/
theorem mem_deleteStoredFiles {stored : Finset String} {names : List String} {f : String} :
    f ∈ deleteStoredFiles stored names ↔ f ∈ stored ∧ (f ∈ names → f = "") := by
  unfold deleteStoredFiles
  rw [List.foldl_reverse]
  -- By induction on the names; a file is erased once and stays erased.
  induction names with
  | nil => simp
  | cons name names ih =>
    rw [List.foldr_cons]
    by_cases hname : name = ""
    · rw [if_pos hname, ih, List.mem_cons, hname]
      refine and_congr_right (fun _ => ⟨fun h hf => hf.elim id h, fun h hf => h (Or.inr hf)⟩)
    · rw [if_neg hname, Finset.mem_erase, ih, List.mem_cons]
      constructor
      · rintro ⟨hne, hstored, hrest⟩
        exact ⟨hstored, fun hf => hrest (hf.resolve_left hne)⟩
      · rintro ⟨hstored, hrest⟩
        refine ⟨fun hf => hname ?_, hstored, fun hf => hrest (Or.inr hf)⟩
        rw [← hf]
        exact hrest (Or.inl hf)

/-! ### One call -/

section

variable {services : ImageServices} {stored : Finset String} {profile : ProductProfile}

/-- The new files are those that storage has gained, and they have names of their own. -/
structure Upload.Stores (upload : Upload) (stored : Finset String) : Prop where
  gained : ∀ f, f ∈ upload.stored ↔ f ∈ stored ∨ f ∈ upload.newFiles
  fresh : ∀ f ∈ upload.newFiles, f ≠ "" ∧ f ∉ stored

namespace Upload.Stores

variable {upload : Upload}

/-- An upload starts with nothing written. -/
theorem start (stored : Finset String) : Upload.Stores ⟨[], stored⟩ stored where
  gained f := by simp
  fresh f hf := by simp at hf

/-- A stored file is added to the upload's own. -/
theorem add (h : upload.Stores stored) {name given : String}
    (hgiven : services.storage.save upload.stored name = .ok given) :
    (upload.add given).Stores stored where
  gained f := by
    show f ∈ insert given upload.stored ↔ f ∈ stored ∨ f ∈ upload.newFiles ++ [given]
    rw [Finset.mem_insert, h.gained, List.mem_append, List.mem_singleton, or_comm, or_assoc]
  fresh f hf := by
    rcases List.mem_append.mp hf with hf | hf
    · exact h.fresh f hf
    · obtain ⟨hne, hnew⟩ := services.storage.fresh hgiven
      rw [List.mem_singleton.mp hf]
      exact ⟨hne, fun hstored => hnew ((h.gained given).mpr (Or.inl hstored))⟩

/-- Deleting the new files gives back the files there were. -/
theorem delete (h : upload.Stores stored) : deleteStoredFiles upload.stored upload.newFiles = stored := by
  ext f
  rw [mem_deleteStoredFiles, h.gained]
  constructor
  · rintro ⟨hstored | hnew, hkept⟩
    · exact hstored
    · exact absurd (hkept hnew) (h.fresh f hnew).1
  · intro hstored
    exact ⟨Or.inl hstored, fun hnew => absurd hstored (h.fresh f hnew).2⟩

end Upload.Stores

/-- However far an upload comes, it has noted what it stored; one that goes through has given the
    profile the files it stored. -/
theorem storeImage_stores {uploadedImage : String} {upload : Upload} {r : Result ProductProfile}
    (h : storeImage services stored profile uploadedImage = (upload, r)) :
    upload.Stores stored ∧ ∀ changed, r = .ok changed →
      changed.pk = profile.pk ∧ ∀ f, f ∈ changed.files ↔ f ∈ upload.newFiles := by
  have hstart := Upload.Stores.start stored
  have hraise : ∀ {e : Error} {P : ProductProfile → Prop} (changed : ProductProfile),
      (Except.error e : Result ProductProfile) = .ok changed → P changed := by
    intro e P changed h
    cases h
  unfold storeImage at h
  -- one case per step that may raise, in the order of the source
  cases hprocess : services.processProductImage uploadedImage with
  | error e =>
    simp only [hprocess, Prod.mk.injEq] at h
    obtain ⟨rfl, rfl⟩ := h
    exact ⟨hstart, hraise⟩
  | ok thumbnailName =>
  simp only [hprocess] at h
  cases hname : productOriginalFilename services.hex uploadedImage with
  | error e =>
    simp only [hname, Prod.mk.injEq] at h
    obtain ⟨rfl, rfl⟩ := h
    exact ⟨hstart, hraise⟩
  | ok originalName =>
  simp only [hname] at h
  cases himage : services.storage.save stored originalName with
  | error e =>
    simp only [himage, Prod.mk.injEq] at h
    obtain ⟨rfl, rfl⟩ := h
    exact ⟨hstart, hraise⟩
  | ok image =>
  simp only [himage] at h
  have hadd := hstart.add himage
  cases hthumbnail : services.storage.save ((Upload.mk [] stored).add image).stored thumbnailName with
  | error e =>
    simp only [hthumbnail, Prod.mk.injEq] at h
    obtain ⟨rfl, rfl⟩ := h
    exact ⟨hadd, hraise⟩
  | ok thumbnail =>
  simp only [hthumbnail] at h
  have hboth := hadd.add hthumbnail
  cases hsave : services.saveProfile { profile with image := image, thumbnail := thumbnail } with
  | error e =>
    simp only [hsave, Prod.mk.injEq] at h
    obtain ⟨rfl, rfl⟩ := h
    exact ⟨hboth, hraise⟩
  | ok u =>
    simp only [hsave, Prod.mk.injEq] at h
    obtain ⟨rfl, rfl⟩ := h
    refine ⟨hboth, ?_⟩
    rintro changed ⟨⟩
    refine ⟨rfl, fun f => ?_⟩
    have hnew : f ∈ (((Upload.mk [] stored).add image).add thumbnail).newFiles
        ↔ f = image ∨ f = thumbnail := by
      simp [Upload.add]
    rw [mem_files, hnew]
    exact ⟨And.left, fun hf => ⟨hf, (hboth.fresh f (hnew.mpr hf)).1⟩⟩

end

/-! ### What a change keeps -/

/-- The stored files are the files of the profiles, and no file belongs to two. -/
structure Media.Consistent (media : Media) : Prop where
  stored : ∀ f, f ∈ media.stored ↔ ∃ p ∈ media.profiles, f ∈ p.files
  owned : ∀ p ∈ media.profiles, ∀ p' ∈ media.profiles, ∀ f, f ∈ p.files → f ∈ p'.files → p = p'

namespace Media.Consistent

variable {media : Media}

/-- A profile gets new files, and its old ones are deleted. -/
theorem replace (h : media.Consistent) {profile changed : ProductProfile} {stored : Finset String}
    (hprofile : profile ∈ media.profiles) (hpk : changed.pk = profile.pk)
    (hfresh : ∀ f ∈ changed.files, f ∉ media.stored)
    (hgained : ∀ f, f ∈ stored ↔ f ∈ media.stored ∨ f ∈ changed.files) :
    Consistent ⟨media.profiles.put changed, deleteStoredFiles stored profile.files⟩ := by
  have hput : ∀ p, p ∈ media.profiles.put changed ↔
      p = changed ∨ p ∈ media.profiles ∧ p.pk ≠ changed.pk :=
    fun p => Table.mem_put ⟨profile, hprofile, hpk.symm⟩
  -- the files of the new version belong to no profile there was
  have hapart : ∀ p ∈ media.profiles, ∀ f ∈ changed.files, f ∉ p.files :=
    fun p hp f hf hfp => hfresh f hf ((h.stored f).mpr ⟨p, hp, hfp⟩)
  have hdeleted : ∀ f, f ∈ deleteStoredFiles stored profile.files ↔
      (f ∈ media.stored ∨ f ∈ changed.files) ∧ f ∉ profile.files := by
    intro f
    rw [mem_deleteStoredFiles, hgained]
    refine and_congr_right (fun _ => ⟨fun hkept hf => ?_, fun hf hmem => absurd hmem hf⟩)
    exact (mem_files.mp hf).2 (hkept hf)
  constructor
  · intro f
    show f ∈ deleteStoredFiles stored profile.files ↔ ∃ p ∈ media.profiles.put changed, f ∈ p.files
    rw [hdeleted]
    constructor
    · rintro ⟨hstored | hnew, hother⟩
      · obtain ⟨p, hp, hf⟩ := (h.stored f).mp hstored
        refine ⟨p, (hput p).mpr (Or.inr ⟨hp, fun heq => hother ?_⟩), hf⟩
        rwa [← Table.eq_of_pk_eq hp hprofile (heq.trans hpk)]
      · exact ⟨changed, (hput changed).mpr (Or.inl rfl), hnew⟩
    · rintro ⟨p, hp, hf⟩
      rcases (hput p).mp hp with rfl | ⟨hp, hne⟩
      · exact ⟨Or.inr hf, hapart profile hprofile f hf⟩
      · refine ⟨Or.inl ((h.stored f).mpr ⟨p, hp, hf⟩), fun hf' => hne ?_⟩
        rw [h.owned p hp profile hprofile f hf hf', hpk]
  · intro p hp p' hp' f hf hf'
    rcases (hput p).mp hp with rfl | ⟨hold, -⟩ <;> rcases (hput p').mp hp' with rfl | ⟨hold', -⟩
    · rfl
    · exact absurd hf' (hapart p' hold' f hf)
    · exact absurd hf (hapart p hold f hf')
    · exact h.owned p hold p' hold' f hf hf'

end Media.Consistent

/-- A call inside its transaction: one that raises leaves storage as it was; after one that does
    not, the rollback gives back the files there were, and the commit leaves those of the new
    rows. -/
theorem changeProductImage_stores {services : ImageServices} {media : Media} {productPk : ℕ}
    {uploadedImage : Option String} {removeImage : Bool} {stored : Finset String}
    {r : Result (Table ProductProfile × ProductImageChange)} (hmedia : media.Consistent)
    (h : changeProductImage services media.stored media.profiles productPk uploadedImage removeImage
      = (stored, r)) :
    (∀ e, r = .error e → stored = media.stored)
      ∧ ∀ profiles change, r = .ok (profiles, change) →
        change.rollback stored = media.stored ∧ Media.Consistent ⟨profiles, change.commit stored⟩ := by
  have hraised : ∀ {e : Error}, stored = media.stored → r = .error e →
      (∀ e, r = .error e → stored = media.stored)
        ∧ ∀ profiles change, r = .ok (profiles, change) →
          change.rollback stored = media.stored
            ∧ Media.Consistent ⟨profiles, change.commit stored⟩ := by
    intro e hstored hr
    refine ⟨fun _ _ => hstored, fun profiles change hok => ?_⟩
    rw [hr] at hok
    cases hok
  unfold changeProductImage at h
  cases uploadedImage with
  | none =>
    cases removeImage with
    | false =>
      -- no change: both lists are empty
      obtain ⟨rfl, rfl⟩ := Prod.mk.inj h
      refine ⟨fun _ _ => rfl, ?_⟩
      rintro profiles change ⟨⟩
      exact ⟨rfl, hmedia⟩
    | true =>
      cases hget : media.profiles.rows.find? (fun p => p.productId = productPk) with
      | none =>
        simp only [hget, Prod.mk.injEq] at h
        exact hraised h.1.symm h.2.symm
      | some profile =>
        simp only [hget] at h
        cases hsave : services.saveProfile { profile with image := "", thumbnail := "" } with
        | error e =>
          simp only [hsave, Prod.mk.injEq] at h
          exact hraised h.1.symm h.2.symm
        | ok u =>
          simp only [hsave, Prod.mk.injEq] at h
          obtain ⟨rfl, rfl⟩ := h
          refine ⟨fun _ _ => rfl, ?_⟩
          rintro profiles change ⟨⟩
          exact ⟨rfl, hmedia.replace (List.mem_of_find?_eq_some hget) rfl
            (by simp [ProductProfile.files]) (by simp [ProductProfile.files])⟩
  | some uploadedImage =>
    cases removeImage with
    | true =>
      obtain ⟨rfl, rfl⟩ := Prod.mk.inj h
      exact hraised rfl rfl
    | false =>
      cases hget : media.profiles.rows.find? (fun p => p.productId = productPk) with
      | none =>
        simp only [hget, Prod.mk.injEq] at h
        exact hraised h.1.symm h.2.symm
      | some profile =>
        simp only [hget] at h
        rcases hstore : storeImage services media.stored profile uploadedImage with ⟨upload, outcome⟩
        obtain ⟨hstores, hchanged⟩ := storeImage_stores hstore
        cases outcome with
        | error e =>
          simp only [hstore, Prod.mk.injEq] at h
          exact hraised (h.1.symm.trans hstores.delete) h.2.symm
        | ok changed =>
          simp only [hstore, Prod.mk.injEq] at h
          obtain ⟨rfl, rfl⟩ := h
          obtain ⟨hpk, hfiles⟩ := hchanged changed rfl
          refine ⟨nofun, ?_⟩
          rintro profiles change ⟨⟩
          refine ⟨hstores.delete, hmedia.replace (List.mem_of_find?_eq_some hget) hpk ?_ ?_⟩
          · exact fun f hf => (hstores.fresh f ((hfiles f).mp hf)).2
          · exact fun f => (hstores.gained f).trans (or_congr_right (hfiles f).symm)

/-! ### Runs -/

/-- A request for an image change, and whether its transaction commits. -/
structure ImageRequest where
  productPk : ℕ
  uploadedImage : Option String
  removeImage : Bool
  commits : Bool

/-- Each profile with files is there before and after, with the same files. -/
structure SameFiles (t t' : Table ProductProfile) : Prop where
  kept : ∀ p ∈ t, p.files ≠ [] → ∃ p' ∈ t', p'.pk = p.pk ∧ p'.files = p.files
  source : ∀ p' ∈ t', p'.files ≠ [] → ∃ p ∈ t, p.pk = p'.pk ∧ p.files = p'.files

/-- A change under any services, or something else that happens to the profiles and leaves their
    files alone. -/
inductive MediaStep : Media → Option ImageRequest → Media → Prop where
  | change {media : Media} (services : ImageServices) (request : ImageRequest) :
      MediaStep media (some request) (media.change services request.productPk
        request.uploadedImage request.removeImage request.commits)
  | elsewhere {media : Media} {profiles : Table ProductProfile} :
      SameFiles media.profiles profiles → MediaStep media none ⟨profiles, media.stored⟩

namespace Media.Consistent

variable {media : Media}

/-- Nothing stored, nothing referenced. -/
theorem empty : Media.empty.Consistent where
  stored f := by simp [Media.empty]
  owned p hp := absurd hp (Table.not_mem_empty p)

/-- **A change of an image.** -/
theorem change (h : media.Consistent) (services : ImageServices) (productPk : ℕ)
    (uploadedImage : Option String) (removeImage commits : Bool) :
    (media.change services productPk uploadedImage removeImage commits).Consistent := by
  unfold Media.change
  rcases hcall : changeProductImage services media.stored media.profiles productPk uploadedImage
    removeImage with ⟨stored, r⟩
  obtain ⟨hraised, hreturned⟩ := changeProductImage_stores h hcall
  -- A raise cleans up what it wrote; a return leaves it to the commit or the rollback.
  cases r with
  | error e =>
    have hkept : ProductImageChange.empty.rollback stored = media.stored := hraised e rfl
    simp only [hkept]
    exact h
  | ok result =>
    obtain ⟨profiles, change⟩ := result
    obtain ⟨hrollback, hcommit⟩ := hreturned profiles change rfl
    cases commits with
    | true => exact hcommit
    | false =>
      simp only [hrollback, Bool.false_eq_true, if_false]
      exact h

/-- Profiles rewritten with their files. -/
theorem elsewhere (h : media.Consistent) {profiles : Table ProductProfile}
    (hsame : SameFiles media.profiles profiles) : Consistent ⟨profiles, media.stored⟩ where
  stored f := by
    rw [h.stored]
    constructor
    · rintro ⟨p, hp, hf⟩
      obtain ⟨p', hp', -, hfiles⟩ := hsame.kept p hp (List.ne_nil_of_mem hf)
      exact ⟨p', hp', hfiles ▸ hf⟩
    · rintro ⟨p', hp', hf⟩
      obtain ⟨p, hp, -, hfiles⟩ := hsame.source p' hp' (List.ne_nil_of_mem hf)
      exact ⟨p, hp, hfiles ▸ hf⟩
  owned p hp p' hp' f hf hf' := by
    obtain ⟨q, hq, hpk, hfiles⟩ := hsame.source p hp (List.ne_nil_of_mem hf)
    obtain ⟨q', hq', hpk', hfiles'⟩ := hsame.source p' hp' (List.ne_nil_of_mem hf')
    rw [← hfiles] at hf
    rw [← hfiles'] at hf'
    -- Two profiles with one file were two profiles with it before.
    have heq := h.owned q hq q' hq' f hf hf'
    refine Table.eq_of_pk_eq hp hp' ?_
    show p.pk = p'.pk
    rw [← hpk, ← hpk', heq]

end Media.Consistent

/-- **No orphaned and no missing files.** -/
theorem image_files_exact {media : Media} {requests : List (Option ImageRequest)}
    (h : Run MediaStep Media.empty requests media) (f : String) :
    f ∈ media.stored ↔ f ≠ "" ∧ ∃ p ∈ media.profiles, f = p.image ∨ f = p.thumbnail := by
  have hconsistent : media.Consistent := by
    refine h.invariant (fun s l t hs hstep => ?_) Media.Consistent.empty
    cases hstep with
    | change services request => exact hs.change services _ _ _ _
    | elsewhere hsame => exact hs.elsewhere hsame
  rw [hconsistent.stored]
  simp only [mem_files]
  constructor
  · rintro ⟨p, hp, hf, hne⟩
    exact ⟨hne, p, hp, hf⟩
  · rintro ⟨hne, p, hp, hf⟩
    exact ⟨p, hp, hf, hne⟩

/-! ### Uploads that go through and uploads that do not -/

namespace Gallery

/-- A storage that takes a name as it is, once, and refuses one name. -/
def storage (refused : String) : FileStorage where
  save stored name := if name = "" ∨ name = refused ∨ name ∈ stored then .error .keyError else .ok name
  fresh {stored name given} h := by
    by_cases hrefused : name = "" ∨ name = refused ∨ name ∈ stored
    · rw [if_pos hrefused] at h
      cases h
    · rw [if_neg hrefused, Except.ok.injEq] at h
      rw [not_or, not_or] at hrefused
      rw [← h]
      exact ⟨hrefused.1, hrefused.2.2⟩

/-- The names of one upload. -/
def services (hex thumbnail refused : String) : ImageServices where
  processProductImage _ := .ok thumbnail
  hex := hex
  storage := storage refused
  saveProfile _ := .ok ()

def profiles : Table ProductProfile := ⟨[⟨1, 7, none, "", "", "", ""⟩], 2, by decide, by decide⟩

/-- An upload that is committed. -/
def uploaded : Media :=
  Media.change (services "a" "t.webp" "") ⟨profiles, ∅⟩ 7 (some "Candy.JPEG") false true

/-- After it an upload whose thumbnail is refused, and one that is rolled back. -/
def media : Media :=
  (uploaded.change (services "b" "u.webp" "u.webp") 7 (some "candy.png") false true).change
    (services "c" "v.webp" "") 7 (some "candy.png") false false

/-- The example is reached by a run. -/
theorem media_run : ∃ requests, Run MediaStep Media.empty requests media := by
  have hprofile : SameFiles Media.empty.profiles profiles := by
    refine ⟨fun p hp => absurd hp (Table.not_mem_empty p), fun p hp hfiles => ?_⟩
    rw [List.mem_singleton.mp hp] at hfiles
    exact absurd rfl hfiles
  exact ⟨_, (((Run.single (.elsewhere hprofile)).append
    (Run.single (.change _ ⟨7, some "Candy.JPEG", false, true⟩))).append
    (Run.single (.change _ ⟨7, some "candy.png", false, true⟩))).append
    (Run.single (.change _ ⟨7, some "candy.png", false, false⟩))⟩

end Gallery

/-- The example's files are those of its profile. -/
theorem image_files_exact_gallery :
    Gallery.media.stored = {"a.jpg", "t.webp"}
      ∧ ∃ p ∈ Gallery.media.profiles, "a.jpg" = p.image ∨ "a.jpg" = p.thumbnail := by
  have hstored : Gallery.media.stored = {"a.jpg", "t.webp"} := by decide +kernel
  obtain ⟨requests, hrun⟩ := Gallery.media_run
  exact ⟨hstored, ((image_files_exact hrun "a.jpg").mp (by rw [hstored]; simp)).2⟩

end SwedeSweets
