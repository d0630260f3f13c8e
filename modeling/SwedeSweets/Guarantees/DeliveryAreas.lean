import SwedeSweets.Retail.DeliveryAreas
import SwedeSweets.Guarantees.Stock

namespace SwedeSweets

open Relational Fallible

/-!
# Syncing the delivery areas

* `sync_adds_new_areas` — a sync adds the areas whose keys the table does not know and leaves
  the others alone; a disabled destination stays disabled unless one of the new areas is a
  spelling of it;
* `disabled_destination_reopened` — a destination disabled under one spelling, opened by the
  sync under another.
-/

/-! ### Keys -/

/-- The keys of the records. -/
theorem mem_recordsByKey {records : List PostalAreaRecord} {k : PostalAreaKey} :
    k ∈ (recordsByKey records).keys ↔ k ∈ records.map PostalAreaRecord.key := by
  refine (Dict.mem_keys_foldl_set Dict.empty).trans ?_
  simp [Dict.empty, Dict.keys]

/-- A new area has the key it was made for. -/
theorem newPostalArea_key (k : PostalAreaKey) (n : ℕ) : ((newPostalArea k).make n).key = k := rfl

/-- The columns of the table admit the record. -/
def PostalAreaRecord.Fits (r : PostalAreaRecord) : Prop :=
  FitsColumn maxRetailCountryCodeLength r.countryCode
    ∧ FitsColumn maxRetailPostalCodeLength r.postalCode
    ∧ FitsColumn maxRetailCityLength r.city

/-- The columns take an area when its key fits them. -/
theorem requireAreaColumns_eq_ok {r : PostalAreaRecord} {u : Unit} :
    requireAreaColumns r.key = .ok u ↔ r.Fits := by
  unfold requireAreaColumns PostalAreaRecord.Fits PostalAreaRecord.key
  simp only [bind_eq_ok, requireFits_eq_ok, exists_const]

/-- The destination is asked for under the spelling of the area, up to case in the city. -/
def PostalAreaKey.Matches (rt : Runtime) (key : PostalAreaKey)
    (countryCode postalCode city : String) : Prop :=
  key.1 = normalizeCountryCode rt countryCode ∧ key.2.1 = normalizePostalCode postalCode
    ∧ rt.iexact key.2.2 (normalizeCity city) = true

/-- The destination has a country, a postal code and a city. -/
def CompleteDestination (rt : Runtime) (countryCode postalCode city : String) : Prop :=
  normalizeCountryCode rt countryCode ≠ "" ∧ normalizePostalCode postalCode ≠ ""
    ∧ normalizeCity city ≠ ""

/-- A destination is supported when it is complete and an enabled area matches it. -/
theorem isSupported_iff {rt : Runtime} {db : Db} {countryCode postalCode city : String} :
    isSupportedRetailDestination rt db countryCode postalCode city = true ↔
      CompleteDestination rt countryCode postalCode city ∧ ∃ area ∈ db.postalAreas,
        area.enabled = true ∧ area.key.Matches rt countryCode postalCode city := by
  unfold isSupportedRetailDestination CompleteDestination
  show (if normalizeCountryCode rt countryCode = "" ∨ normalizePostalCode postalCode = ""
    ∨ normalizeCity city = "" then false else _) = true ↔ _
  -- An incomplete destination is refused before any area is looked at.
  by_cases h : normalizeCountryCode rt countryCode = "" ∨ normalizePostalCode postalCode = ""
      ∨ normalizeCity city = ""
  · rw [if_pos h]
    simp only [Bool.false_eq_true, false_iff, not_and]
    rintro ⟨hcountry, hpostal, hcity⟩
    rcases h with h | h | h
    · exact absurd h hcountry
    · exact absurd h hpostal
    · exact absurd h hcity
  · rw [if_neg h]
    push Not at h
    rw [List.any_eq_true, and_iff_right h]
    refine exists_congr (fun area => and_congr_right (fun _ => ?_))
    simp only [Bool.and_eq_true, decide_eq_true_eq]
    constructor
    · rintro ⟨⟨⟨hcountry, hpostal⟩, hcity⟩, henabled⟩
      exact ⟨henabled, hcountry, hpostal, hcity⟩
    · rintro ⟨henabled, hcountry, hpostal, hcity⟩
      exact ⟨⟨⟨hcountry, hpostal⟩, hcity⟩, henabled⟩

/-! ### One sync -/

/-- The new keys are those fetched and not on file. -/
theorem mem_newAreaKeys {db : Db} {fetched : List PostalAreaRecord} {k : PostalAreaKey} :
    k ∈ newAreaKeys db fetched ↔ k ∈ fetched.map PostalAreaRecord.key ∧ k ∉ db.areaKeys := by
  unfold newAreaKeys
  rw [List.mem_filter, mem_recordsByKey, decide_eq_true_eq]

/-- No new key is inserted twice. -/
theorem newAreaKeys_nodup (db : Db) (fetched : List PostalAreaRecord) :
    (newAreaKeys db fetched).Nodup :=
  (recordsByKey fetched).nodup.filter _

/-- The database with areas for the keys. -/
def Db.withAreas (db : Db) (keys : List PostalAreaKey) : Db :=
  { db with postalAreas := db.postalAreas.insertAll (keys.map newPostalArea) }

section

variable {rt : Runtime} {setOrder : SetOrder PostalAreaKey} {db : Db}
  {raw : List (String × String × String)} {fetched : List PostalAreaRecord}

/-- A sync inserts the new keys, in some order. -/
theorem sync_eq_ok (hfetch : fetchPostalAreas rt raw = .ok fetched)
    {db' : Db} {result : PostalAreaSyncResult}
    (h : syncRetailPostalAreas rt setOrder db raw = .ok (db', result)) :
    db' = db.withAreas (setOrder.arrange (newAreaKeys db fetched))
      ∧ result.created = (setOrder.arrange (newAreaKeys db fetched)).length := by
  unfold syncRetailPostalAreas at h
  rw [hfetch] at h
  simp only [bind_eq_ok, pure_eq_ok, Except.ok.injEq, exists_eq_left'] at h
  obtain ⟨-, -, h⟩ := h
  obtain ⟨rfl, rfl⟩ := Prod.mk.inj h
  exact ⟨rfl, rfl⟩

/-- A sync fails over a new record that the columns do not admit, and over nothing else. -/
theorem sync_returns_iff (hfetch : fetchPostalAreas rt raw = .ok fetched) :
    (∃ r, syncRetailPostalAreas rt setOrder db raw = .ok r) ↔
      ∀ record ∈ fetched, record.key ∉ db.areaKeys → record.Fits := by
  unfold syncRetailPostalAreas
  rw [hfetch]
  simp only [bind_eq_ok, pure_eq_ok, Except.ok.injEq, exists_eq_left']
  -- Whatever order the set iterates in, the inserted keys are the new ones.
  have hkeys : ∀ k, k ∈ setOrder.arrange (newAreaKeys db fetched) ↔
      k ∈ fetched.map PostalAreaRecord.key ∧ k ∉ db.areaKeys := fun k =>
    (setOrder.perm _).mem_iff.trans mem_newAreaKeys
  constructor
  · rintro ⟨r, us, hus, -⟩ record hrecord hnew
    have hmem := (hkeys record.key).mpr ⟨List.mem_map_of_mem hrecord, hnew⟩
    obtain ⟨u, hu⟩ := returns_of_mapM hus record.key hmem
    exact requireAreaColumns_eq_ok.mp hu
  · intro hfits
    have hall : ∀ k ∈ setOrder.arrange (newAreaKeys db fetched),
        ∃ u, requireAreaColumns k = .ok u := by
      intro k hk
      obtain ⟨hk, hnew⟩ := (hkeys k).mp hk
      obtain ⟨record, hrecord, rfl⟩ := List.mem_map.mp hk
      exact ⟨(), requireAreaColumns_eq_ok.mpr (hfits record hrecord hnew)⟩
    obtain ⟨us, hus⟩ := mapM_ok hall
    exact ⟨_, us, hus, rfl⟩

/-- What a sync leaves behind: the areas from before, and one enabled area for each new key. -/
structure AreasSynced (db : Db) (fetched : List PostalAreaRecord) (db' : Db) : Prop where
  others : db' = { db with postalAreas := db'.postalAreas }
  added : ∃ added : List RetailPostalArea,
    db'.postalAreas.rows = db.postalAreas.rows ++ added ∧ (added.map RetailPostalArea.key).Nodup
      ∧ (∀ k, k ∈ added.map RetailPostalArea.key ↔
        k ∈ fetched.map PostalAreaRecord.key ∧ k ∉ db.areaKeys)
      ∧ ∀ area ∈ added, area.enabled = true

/-- With the new keys inserted, the areas are synced. -/
theorem withAreas_synced {keys : List PostalAreaKey} (hperm : keys.Perm (newAreaKeys db fetched)) :
    AreasSynced db fetched (db.withAreas keys) := by
  have hkeys : (Table.made db.postalAreas.next (keys.map newPostalArea)).map RetailPostalArea.key
      = keys :=
    (Table.map_made_map newPostalArea_key _ keys).trans (List.map_id keys)
  refine ⟨rfl, _, Table.rows_insertAll _ _, ?_, fun k => ?_, fun area harea => ?_⟩
  · rw [hkeys]
    exact hperm.nodup_iff.mpr (newAreaKeys_nodup db fetched)
  · rw [hkeys, hperm.mem_iff, mem_newAreaKeys]
  · obtain ⟨k, -, n, rfl⟩ := Table.mem_made_map harea
    rfl

/-- A key of the table, or one that was fetched. -/
theorem AreasSynced.mem_areaKeys {db' : Db} (h : AreasSynced db fetched db') {k : PostalAreaKey} :
    k ∈ db'.areaKeys ↔ k ∈ db.areaKeys ∨ k ∈ fetched.map PostalAreaRecord.key := by
  obtain ⟨added, hrows, -, hadded, -⟩ := h.added
  unfold Db.areaKeys
  rw [hrows, List.map_append, List.mem_append, hadded]
  show k ∈ db.areaKeys ∨ (_ ∧ k ∉ db.areaKeys) ↔ _
  tauto

/-- After a sync every fetched key is known. -/
theorem AreasSynced.newAreaKeys_eq {db' : Db} (h : AreasSynced db fetched db') :
    newAreaKeys db' fetched = [] := by
  refine List.eq_nil_iff_forall_not_mem.mpr (fun k hk => ?_)
  obtain ⟨hk, hnew⟩ := mem_newAreaKeys.mp hk
  exact hnew (h.mem_areaKeys.mpr (Or.inr hk))

/-- A destination is delivered to if it was, or if one of the new areas is it. -/
theorem AreasSynced.isSupported {db' : Db} (h : AreasSynced db fetched db')
    {countryCode postalCode city : String} :
    isSupportedRetailDestination rt db' countryCode postalCode city = true ↔
      isSupportedRetailDestination rt db countryCode postalCode city = true
        ∨ CompleteDestination rt countryCode postalCode city ∧ ∃ record ∈ fetched,
          record.key ∉ db.areaKeys ∧ record.key.Matches rt countryCode postalCode city := by
  obtain ⟨added, hrows, -, hadded, henabled⟩ := h.added
  rw [isSupported_iff, isSupported_iff, ← and_or_left]
  refine and_congr_right (fun _ => ?_)
  -- An area on file was there before or was added for a record.
  constructor
  · rintro ⟨area, harea, hon, hmatches⟩
    rw [Table.mem_def, hrows, List.mem_append] at harea
    rcases harea with harea | harea
    · exact Or.inl ⟨area, harea, hon, hmatches⟩
    · obtain ⟨hfetched, hnew⟩ := (hadded area.key).mp (List.mem_map_of_mem harea)
      obtain ⟨record, hrecord, hkey⟩ := List.mem_map.mp hfetched
      exact Or.inr ⟨record, hrecord, hkey ▸ hnew, hkey ▸ hmatches⟩
  · rintro (⟨area, harea, hon, hmatches⟩ | ⟨record, hrecord, hnew, hmatches⟩)
    · refine ⟨area, ?_, hon, hmatches⟩
      rw [Table.mem_def, hrows]
      exact List.mem_append_left _ harea
    · obtain ⟨area, harea, hkey⟩ := List.mem_map.mp
        ((hadded record.key).mpr ⟨List.mem_map_of_mem hrecord, hnew⟩)
      refine ⟨area, ?_, henabled area harea, hkey ▸ hmatches⟩
      rw [Table.mem_def, hrows]
      exact List.mem_append_right _ harea

end

/-- **A sync adds the new areas.** It fails only when a new record does not fit its columns.  It
    leaves every area alone and adds one enabled area for each fetched key that the table does not
    know, in whatever order the set of keys is gone through; a second sync adds nothing.  A
    destination is delivered to afterwards if it was before or a new key matches it; so one whose
    areas are all disabled stays so unless a new key matches it. -/
theorem sync_adds_new_areas (rt : Runtime) (setOrder setOrder' : SetOrder PostalAreaKey) (db : Db)
    {raw : List (String × String × String)} {fetched : List PostalAreaRecord}
    (hfetch : fetchPostalAreas rt raw = .ok fetched) :
    ((∃ r, syncRetailPostalAreas rt setOrder db raw = .ok r) ↔
      ∀ record ∈ fetched, record.key ∉ db.areaKeys → record.Fits) ∧
    ∀ db' result, syncRetailPostalAreas rt setOrder db raw = .ok (db', result) →
      AreasSynced db fetched db'
      ∧ (∃ result', syncRetailPostalAreas rt setOrder' db' raw = .ok (db', result')
        ∧ result'.created = 0)
      ∧ ∀ countryCode postalCode city : String,
        (isSupportedRetailDestination rt db' countryCode postalCode city = true ↔
          isSupportedRetailDestination rt db countryCode postalCode city = true
            ∨ CompleteDestination rt countryCode postalCode city ∧ ∃ record ∈ fetched,
              record.key ∉ db.areaKeys ∧ record.key.Matches rt countryCode postalCode city)
        ∧ ((∃ area ∈ db.postalAreas, area.key.Matches rt countryCode postalCode city) →
          (∀ area ∈ db.postalAreas, area.key.Matches rt countryCode postalCode city →
            area.enabled = false) →
          (∀ record ∈ fetched, record.key ∉ db.areaKeys →
            ¬ record.key.Matches rt countryCode postalCode city) →
          isSupportedRetailDestination rt db' countryCode postalCode city = false) := by
  refine ⟨sync_returns_iff hfetch, fun db' result h => ?_⟩
  obtain ⟨rfl, -⟩ := sync_eq_ok hfetch h
  have hsynced : AreasSynced db fetched (db.withAreas (setOrder.arrange (newAreaKeys db fetched))) :=
    withAreas_synced (setOrder.perm _)
  refine ⟨hsynced, ?_, fun countryCode postalCode city => ⟨hsynced.isSupported, ?_⟩⟩
  · -- every fetched key is known now, so there is nothing that could fail to fit
    have hagain : ∃ r, syncRetailPostalAreas rt setOrder'
        (db.withAreas (setOrder.arrange (newAreaKeys db fetched))) raw = .ok r :=
      (sync_returns_iff hfetch).mpr (fun record hrecord hnew =>
        absurd (hsynced.mem_areaKeys.mpr (Or.inr (List.mem_map_of_mem hrecord))) hnew)
    obtain ⟨⟨db'', result'⟩, hsecond⟩ := hagain
    obtain ⟨hdb, hcreated⟩ := sync_eq_ok hfetch hsecond
    have hnone : setOrder'.arrange (newAreaKeys
        (db.withAreas (setOrder.arrange (newAreaKeys db fetched))) fetched) = [] := by
      rw [hsynced.newAreaKeys_eq]
      exact (setOrder'.perm []).eq_nil
    rw [hnone] at hdb hcreated
    rw [hdb] at hsecond
    exact ⟨result', hsecond, hcreated⟩
  · rintro - hdisabled hnone
    rw [Bool.eq_false_iff, ne_eq, hsynced.isSupported, isSupported_iff]
    rintro (⟨-, area, harea, hon, hmatches⟩ | ⟨-, record, hrecord, hnew, hmatches⟩)
    · rw [hdisabled area harea hmatches] at hon
      cases hon
    · exact hnone record hrecord hnew hmatches

namespace Shop

/-- Cities are compared without their case. -/
def caseless : Runtime :=
  { runtime 0 with iexact a b := a.toList.map Char.toLower = b.toList.map Char.toLower }

def listOrder : SetOrder PostalAreaKey := ⟨id, List.Perm.refl⟩

/-- Chamonix, as it was entered in capitals, is not delivered to. -/
def chamonixClosed : Db :=
  { Db.empty with postalAreas :=
      ⟨[⟨1, "FR", "74400", "CHAMONIX-MONT-BLANC", false⟩], 2, by decide, by decide⟩ }

def seed : List PostalAreaRecord := rawRecords.map (fun raw => ⟨raw.1, raw.2.1, raw.2.2⟩)

/-- A postal code of eleven digits. -/
def longPostalCode : PostalAreaRecord := ⟨"FR", "74400000000", "Passy"⟩

/-- A long postal code is fetched all the same. -/
theorem longPostalCode_fetched :
    fetchPostalAreas caseless [longPostalCode.key] = .ok [longPostalCode] := by decide +kernel

/-- It does not fit its column. -/
theorem longPostalCode_long : ¬ longPostalCode.Fits := by
  unfold PostalAreaRecord.Fits
  decide +kernel

/-- The seed records are fetched. -/
theorem seed_fetched : fetchPostalAreas caseless rawRecords = .ok seed := by decide +kernel

/-- The area in capitals is as `save` leaves it, and is the destination. -/
theorem capitals_match : ∀ area ∈ chamonixClosed.postalAreas, area.enabled = false
    ∧ area.key = (normalizeRecord caseless area.key).key
    ∧ area.key.Matches caseless "FR" "74400" "Chamonix-Mont-Blanc" := by
  unfold PostalAreaKey.Matches
  decide +kernel

/-- The seed has a new key for the destination. -/
theorem chamonix_spelled : CompleteDestination caseless "FR" "74400" "Chamonix-Mont-Blanc"
    ∧ ∃ record ∈ seed, record.key ∉ chamonixClosed.areaKeys
      ∧ record.key.Matches caseless "FR" "74400" "Chamonix-Mont-Blanc" := by
  unfold PostalAreaKey.Matches CompleteDestination
  decide +kernel

/-- The sync goes through with one area closed. -/
theorem chamonixClosed_returns :
    ∃ r, syncRetailPostalAreas caseless listOrder chamonixClosed rawRecords = .ok r := by
  have hfits : ∀ record ∈ seed, record.key ∉ chamonixClosed.areaKeys → record.Fits := by
    unfold PostalAreaRecord.Fits
    decide +kernel
  exact (sync_returns_iff seed_fetched).mpr hfits

end Shop

/-- The seed is added to a table with one disabled area. -/
theorem sync_adds_new_areas_seed :
    ∃ db' result, syncRetailPostalAreas Shop.caseless Shop.listOrder Shop.chamonixClosed rawRecords
        = .ok (db', result)
      ∧ AreasSynced Shop.chamonixClosed Shop.seed db' := by
  obtain ⟨⟨db', result⟩, hok⟩ := Shop.chamonixClosed_returns
  have hsync := sync_adds_new_areas Shop.caseless Shop.listOrder Shop.listOrder Shop.chamonixClosed
    Shop.seed_fetched
  exact ⟨db', result, hok, (hsync.2 db' result hok).1⟩

/-- **A disabled destination is reopened.** The one area that matches the destination is disabled;
    the seed spells its city in another case, and the destination is delivered to after the
    sync.  And a record that passes validation may be too long for the table. -/
theorem disabled_destination_reopened :
    (∀ area ∈ Shop.chamonixClosed.postalAreas, area.enabled = false
      ∧ area.key = (normalizeRecord Shop.caseless area.key).key
      ∧ area.key.Matches Shop.caseless "FR" "74400" "Chamonix-Mont-Blanc") ∧
    ∃ db' result, syncRetailPostalAreas Shop.caseless Shop.listOrder Shop.chamonixClosed rawRecords
        = .ok (db', result)
      ∧ isSupportedRetailDestination Shop.caseless db' "FR" "74400" "Chamonix-Mont-Blanc"
        = true
      ∧ (∃ fetched, fetchPostalAreas Shop.caseless [Shop.longPostalCode.key] = .ok fetched)
      ∧ ¬ ∃ r, syncRetailPostalAreas Shop.caseless Shop.listOrder Db.empty
        [Shop.longPostalCode.key] = .ok r := by
  obtain ⟨⟨db', result⟩, hok⟩ := Shop.chamonixClosed_returns
  -- The new spelling of the closed area is a new key, and enabled.
  have hsynced : AreasSynced Shop.chamonixClosed Shop.seed db' := by
    rw [(sync_eq_ok Shop.seed_fetched hok).1]
    exact withAreas_synced (Shop.listOrder.perm _)
  refine ⟨Shop.capitals_match, db', result, hok,
    hsynced.isSupported.mpr (Or.inr Shop.chamonix_spelled), ⟨_, Shop.longPostalCode_fetched⟩, ?_⟩
  intro hreturns
  have hfits := (sync_returns_iff Shop.longPostalCode_fetched).mp hreturns
  have hnew : Shop.longPostalCode.key ∉ Db.empty.areaKeys := List.not_mem_nil
  exact Shop.longPostalCode_long (hfits Shop.longPostalCode (List.mem_singleton_self _) hnew)

end SwedeSweets
