import SwedeSweets.Lib.Dict
import SwedeSweets.Retail.Services

namespace SwedeSweets

open Relational Fallible

/-!
# Delivery areas

The reference set of postal areas is fetched, validated and deduplicated (`fetchPostalAreas`),
and the areas that the table does not know are added to it (`syncRetailPostalAreas`).  An area
is identified by its country code, postal code and city, letter for letter.
-/

def maxRetailCountryCodeLength : ℕ := 2

def maxRetailPostalCodeLength : ℕ := 10

def maxRetailCityLength : ℕ := 120

def retailServiceCountry : String := "FR"

def retailServiceDepartmentPrefix : String := "74"

def normalizeCountryCode (rt : Runtime) (value : String) : String := rt.upper (Text.strip value)

def normalizePostalCode (value : String) : String := Text.strip value

def normalizeCity (value : String) : String := Text.collapse (Text.strip value)

/-- Country code, postal code and city. -/
abbrev PostalAreaKey := String × String × String

structure PostalAreaRecord where
  countryCode : String
  postalCode : String
  city : String
  deriving DecidableEq, Repr

def PostalAreaRecord.key (r : PostalAreaRecord) : PostalAreaKey :=
  (r.countryCode, r.postalCode, r.city)

def RetailPostalArea.key (area : RetailPostalArea) : PostalAreaKey :=
  (area.countryCode, area.postalCode, area.city)

structure PostalAreaSyncResult where
  fetched : ℕ
  created : ℕ
  unchanged : ℕ
  stale : List PostalAreaRecord
  deriving DecidableEq, Repr

/-! ### Fetching -/

def normalizeRecord (rt : Runtime) (raw : String × String × String) : PostalAreaRecord where
  countryCode := normalizeCountryCode rt raw.1
  postalCode := normalizePostalCode raw.2.1
  city := normalizeCity raw.2.2

def validateRecord (record : PostalAreaRecord) : Result Unit := do
  require (record.countryCode = retailServiceCountry) (.postalAreaFetchError
    ("postal area " ++ record.postalCode ++ " is outside the supported country "
      ++ retailServiceCountry))
  require (retailServiceDepartmentPrefix.toList <+: record.postalCode.toList)
    (.postalAreaFetchError ("postal area " ++ record.postalCode ++ " is outside departement "
      ++ retailServiceDepartmentPrefix))
  require (record.city ≠ "") (.postalAreaFetchError
    ("postal area " ++ record.postalCode ++ " is missing a city"))

def validateRecords (records : List PostalAreaRecord) : Result Unit := do
  require (records ≠ []) (.postalAreaFetchError "postal-area fetch returned no records")
  let _ ← records.mapM validateRecord

/-- The records by key; of records with the same key the last one stays, at the place of the
    first. -/
def recordsByKey (records : List PostalAreaRecord) : Dict PostalAreaKey PostalAreaRecord :=
  records.foldl (fun d r => d.set r.key r) Dict.empty

def deduplicate (records : List PostalAreaRecord) : List PostalAreaRecord :=
  (recordsByKey records).values

/-- The seed of the reference set. -/
def rawRecords : List (String × String × String) :=
  [ ("FR", "74400", "Chamonix-Mont-Blanc"),
    ("FR", "74310", "Les Houches"),
    ("FR", "74170", "Saint-Gervais-les-Bains"),
    ("FR", "74190", "Passy"),
    ("FR", "74300", "Sallanches") ]

/-- The reference set of deliverable postal areas, from what was fetched. -/
def fetchPostalAreas (rt : Runtime) (raw : List (String × String × String)) :
    Result (List PostalAreaRecord) := do
  let records := raw.map (normalizeRecord rt)
  validateRecords records
  return deduplicate records

/-! ### Syncing -/

/-- The order of tuples of strings. -/
def PostalAreaKey.le (a b : PostalAreaKey) : Prop :=
  a.1 < b.1 ∨ (a.1 = b.1 ∧ (a.2.1 < b.2.1 ∨ (a.2.1 = b.2.1 ∧ a.2.2 ≤ b.2.2)))

instance (a b : PostalAreaKey) : Decidable (PostalAreaKey.le a b) := by
  unfold PostalAreaKey.le; infer_instance

def newPostalArea (key : PostalAreaKey) : NewRow RetailPostalArea :=
  ⟨fun pk => ⟨pk, key.1, key.2.1, key.2.2, true⟩, fun _ => rfl⟩

/-- What the columns of the table admit. -/
def requireAreaColumns (key : PostalAreaKey) : Result Unit := do
  requireFits maxRetailCountryCodeLength key.1
  requireFits maxRetailPostalCodeLength key.2.1
  requireFits maxRetailCityLength key.2.2

/-- The keys in the table; the set of them is asked for membership only. -/
def Db.areaKeys (db : Db) : List PostalAreaKey := db.postalAreas.rows.map RetailPostalArea.key

/-- The fetched keys that the table does not know. -/
def newAreaKeys (db : Db) (fetched : List PostalAreaRecord) : List PostalAreaKey :=
  (recordsByKey fetched).keys.filter (· ∉ db.areaKeys)

/-- Add newly known postal areas without touching existing rows. -/
def syncRetailPostalAreas (rt : Runtime) (setOrder : SetOrder PostalAreaKey) (db : Db)
    (raw : List (String × String × String)) : Result (Db × PostalAreaSyncResult) := do
  let fetchedRecords ← fetchPostalAreas rt raw
  let fetchedByKey := recordsByKey fetchedRecords
  let existingKeys := db.areaKeys
  let newKeys := setOrder.arrange (fetchedByKey.keys.filter (· ∉ existingKeys))
  let staleKeys := existingKeys.dedup.filter (· ∉ fetchedByKey.keys)
  let _ ← newKeys.mapM requireAreaColumns
  return (
    { db with postalAreas := db.postalAreas.insertAll (newKeys.map newPostalArea) },
    { fetched := fetchedByKey.keys.length
      created := newKeys.length
      unchanged := fetchedByKey.keys.length - newKeys.length
      stale := (staleKeys.insertionSort PostalAreaKey.le).map
        (fun key => ⟨key.1, key.2.1, key.2.2⟩) })

end SwedeSweets
