import SwedeSweets.Products.Catalog
import Mathlib.Data.Finset.Basic

namespace SwedeSweets

open Relational Fallible

/-!
# Product images

`changeProductImage` replaces or removes the image of a product.  The database rolls back with the
transaction, the file storage does not: so the model returns the files that are stored after the
call also when it raises, and the rows only when it does not.

Whatever may raise on the way is a part of `ImageServices`: the image library, the file storage and
the database.
-/

/-! ### File names -/

/-- `Path(name).suffix` of a name without directories. -/
def pathSuffix (name : String) : String :=
  let suffix := (name.toList.reverse.takeWhile (· ≠ '.')).reverse
  let stem := name.toList.take (name.toList.length - suffix.length - 1)
  if '.' ∈ name.toList ∧ stem ≠ [] ∧ suffix ≠ [] then String.ofList ('.' :: suffix) else ""

/-- A storage-safe name that keeps the format; `hex` is `uuid4().hex`. -/
def productOriginalFilename (hex originalName : String) : Result String := do
  let suffix := Text.lower (pathSuffix originalName)
  let suffix := if suffix = ".jpeg" then ".jpg" else suffix
  require (suffix ∈ [".jpg", ".png"]) (.valueError "Unsupported product image extension.")
  return hex ++ suffix

/-! ### The services an upload needs -/

/-- A file storage: it saves a file under a name that no stored file has, or raises and stores
    nothing. -/
structure FileStorage where
  save : Finset String → String → Result String
  fresh : ∀ {files : Finset String} {name given : String},
    save files name = .ok given → given ≠ "" ∧ given ∉ files

structure ImageServices where
  /-- `process_product_image`, with the name of the thumbnail. -/
  processProductImage : String → Result String
  /-- `uuid4().hex`. -/
  hex : String
  storage : FileStorage
  /-- `profile.save(...)` on the profile as it is to be stored. -/
  saveProfile : ProductProfile → Result Unit

/-! ### Changes -/

/-- The files affected by one image mutation. -/
structure ProductImageChange where
  newFiles : List String
  oldFiles : List String
  deriving DecidableEq, Repr

def ProductImageChange.empty : ProductImageChange := ⟨[], []⟩

/-- The files of a profile, the names that are not empty. -/
def ProductProfile.files (profile : ProductProfile) : List String :=
  [profile.image, profile.thumbnail].filter (· ≠ "")

/-- `_delete_stored_files`, last file first. -/
def deleteStoredFiles (stored : Finset String) (names : List String) : Finset String :=
  names.reverse.foldl (fun stored name => if name = "" then stored else stored.erase name) stored

/-- Remove the newly written files. -/
def ProductImageChange.rollback (change : ProductImageChange) (stored : Finset String) :
    Finset String :=
  deleteStoredFiles stored change.newFiles

/-- Remove the files replaced by the mutation. -/
def ProductImageChange.commit (change : ProductImageChange) (stored : Finset String) :
    Finset String :=
  deleteStoredFiles stored change.oldFiles

/-- Where the upload of an image stands: `new_files`, and the files in storage. -/
structure Upload where
  newFiles : List String
  stored : Finset String

/-- The file just stored, noted in `new_files`. -/
def Upload.add (upload : Upload) (name : String) : Upload :=
  ⟨upload.newFiles ++ [name], insert name upload.stored⟩

/-- The body of the `try`: it returns how far it came also when it raises. -/
def storeImage (services : ImageServices) (stored : Finset String) (profile : ProductProfile)
    (uploadedImage : String) : Upload × Result ProductProfile :=
  let start : Upload := ⟨[], stored⟩
  match services.processProductImage uploadedImage with
  | .error e => (start, .error e)
  | .ok thumbnailName =>
  match productOriginalFilename services.hex uploadedImage with
  | .error e => (start, .error e)
  | .ok originalName =>
  match services.storage.save start.stored originalName with
  | .error e => (start, .error e)
  | .ok image =>
  let upload := start.add image
  match services.storage.save upload.stored thumbnailName with
  | .error e => (upload, .error e)
  | .ok thumbnail =>
  let upload := upload.add thumbnail
  let profile := { profile with image := image, thumbnail := thumbnail }
  match services.saveProfile profile with
  | .error e => (upload, .error e)
  | .ok _ => (upload, .ok profile)

/-- Replace or remove the catalog image of a product; an upload is given by its name. -/
def changeProductImage (services : ImageServices) (stored : Finset String)
    (profiles : Table ProductProfile) (productPk : ℕ) (uploadedImage : Option String)
    (removeImage : Bool) : Finset String × Result (Table ProductProfile × ProductImageChange) :=
  match uploadedImage, removeImage with
  | none, false => (stored, .ok (profiles, .empty))
  | some _, true =>
      (stored, .error (.valueError "Cannot upload and remove a product image in the same operation."))
  | none, true =>
      match profiles.rows.find? (fun p => p.productId = productPk) with
      | none => (stored, .error (.doesNotExist "ProductProfile"))
      | some profile =>
          let removed := { profile with image := "", thumbnail := "" }
          match services.saveProfile removed with
          | .error e => (stored, .error e)
          | .ok _ => (stored, .ok (profiles.put removed, ⟨[], profile.files⟩))
  | some uploadedImage, false =>
      match profiles.rows.find? (fun p => p.productId = productPk) with
      | none => (stored, .error (.doesNotExist "ProductProfile"))
      | some profile =>
          match storeImage services stored profile uploadedImage with
          | (upload, .error e) => (deleteStoredFiles upload.stored upload.newFiles, .error e)
          | (upload, .ok changed) =>
              (upload.stored, .ok (profiles.put changed, ⟨upload.newFiles, profile.files⟩))

/-! ### The callers -/

/-- The profiles as they are persisted, and the files in storage. -/
structure Media where
  profiles : Table ProductProfile
  stored : Finset String

def Media.empty : Media := ⟨.empty, ∅⟩

/-- A view around `change_product_image`: the call inside a transaction, whose rows are persisted
    if it commits, and then `commit()` or `rollback()`.  When the call itself raises, the change is
    still the empty one. -/
def Media.change (services : ImageServices) (media : Media) (productPk : ℕ)
    (uploadedImage : Option String) (removeImage commits : Bool) : Media :=
  match changeProductImage services media.stored media.profiles productPk uploadedImage
    removeImage with
  | (stored, .error _) => { media with stored := ProductImageChange.empty.rollback stored }
  | (stored, .ok (profiles, change)) =>
      if commits then ⟨profiles, change.commit stored⟩
      else { media with stored := change.rollback stored }

end SwedeSweets
