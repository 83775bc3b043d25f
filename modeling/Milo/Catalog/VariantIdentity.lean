import Milo.Catalog.Coverage
import Milo.Python.Documents
import Milo.Reasoning.PrefixCode
import Milo.Reasoning.StableSort

/-!
# VariantIdentity — the text a variant's key is taken over

The service and the database build it separately.  Every part tells its own length, so the text
determines the identity, and the two agree although one sorts names by code points and the other by
bytes.
-/

namespace Milo.Catalog

open Milo.Python Milo.Reasoning

/-! ## 1. The service's text -/

/-- The identity columns of a variant, the register codes of its row, and its dimensions. -/
structure VariantIdentity where
  manufacturer : Option Text
  commercialModel : Option Text
  modelYearStart : Option ℤ
  modelYearEnd : Option ℤ
  officialModelCode : Option Text
  trim : Option Text
  registerManufacturerCode : Option Text
  registerModelCode : Option Text
  vehicleTypeCode : Option Text
  identityDimensions : Dict Text Text

/-- `VARIANT_IDENTITY_CONTRACT`. -/
def variantIdentityContract : Text := "milo-variant-identity/2".toList

/-- `_token`: a value after its length, so that none can imitate a separator. -/
def token : Option Text → Text
  | none => ['-']
  | some value => natText value.length ++ ':' :: value

/-- `_year`. -/
def yearText (year : Option ℤ) : Option Text := year.map intText

/-- `variant_identity_text`. -/
def variantIdentityText (manufacturer commercialModel : Option Text)
    (modelYearStart modelYearEnd : Option ℤ)
    (officialModelCode trim registerManufacturerCode registerModelCode vehicleTypeCode : Option Text)
    (identityDimensions : Option (Dict Text Text)) : Text :=
  let columns := [manufacturer, commercialModel, yearText modelYearStart, yearText modelYearEnd,
    officialModelCode, trim, registerManufacturerCode, registerModelCode, vehicleTypeCode]
  let dimensions := identityDimensions.getD .empty
  let named := (sortedBy id dimensions.keys).filterMap fun name =>
    (dimensions.get? name).map fun value => token (some name) ++ '=' :: token (some value)
  List.intercalate ['|'] (variantIdentityContract :: columns.map token ++ named)

def VariantIdentity.text (v : VariantIdentity) : Text :=
  variantIdentityText v.manufacturer v.commercialModel v.modelYearStart v.modelYearEnd
    v.officialModelCode v.trim v.registerManufacturerCode v.registerModelCode v.vehicleTypeCode
    (some v.identityDimensions)

/-! ## 2. The database's text -/

/-- A value of type `integer`. -/
abbrev PgInteger := { n : ℤ // -2147483648 ≤ n ∧ n ≤ 2147483647 }

/-- A text as `collate "C"` compares it: by the bytes of its UTF-8. -/
def collateC (text : Text) : List ℕ :=
  text.flatMap fun c => (String.utf8EncodeChar c).map UInt8.toNat

/-- `catalog_variant_identity_token`. -/
def catalogVariantIdentityToken (value : Option Text) : Text :=
  match value with
  | none => ['-']
  | some value => natText value.length ++ ':' :: value

/-- `jsonb_each`. -/
def jsonbEach : Jsonb → Except String (List (Text × Jsonb))
  | .obj members => .ok members
  | _ => .error "cannot call jsonb_each on a non-object"

/-- `catalog_variant_identity_text`. -/
def catalogVariantIdentityText (manufacturer commercialModel : Option Text)
    (modelYearStart modelYearEnd : Option PgInteger)
    (officialModelCode trim registerManufacturerCode registerModelCode vehicleTypeCode : Option Text)
    (dimensions : Option Jsonb) : Except String Text := do
  let members ← jsonbEach (dimensions.getD (.obj []))
  return variantIdentityContract ++
    '|' :: catalogVariantIdentityToken manufacturer ++
    '|' :: catalogVariantIdentityToken commercialModel ++
    '|' :: catalogVariantIdentityToken (modelYearStart.map fun year => intText year) ++
    '|' :: catalogVariantIdentityToken (modelYearEnd.map fun year => intText year) ++
    '|' :: catalogVariantIdentityToken officialModelCode ++
    '|' :: catalogVariantIdentityToken trim ++
    '|' :: catalogVariantIdentityToken registerManufacturerCode ++
    '|' :: catalogVariantIdentityToken registerModelCode ++
    '|' :: catalogVariantIdentityToken vehicleTypeCode ++
    (sortedBy (fun d : Text × Jsonb => collateC d.1) members).flatMap fun d =>
      '|' :: catalogVariantIdentityToken (some d.1) ++
        '=' :: catalogVariantIdentityToken (rendered (some d.2))

/-! ## 3. Reading the text back -/

theorem delimits_count : Delimits fun n : ℕ => natText n ++ [':'] := by
  refine Delimits.terminated (fun _ _ h => natText_injective h) fun n hmem => ?_
  exact absurd (isDigit_of_mem_natText hmem) (by decide)

theorem delimits_token : Delimits token := by
  have hvalue : Delimits fun value : Text => natText value.length ++ [':'] ++ value :=
    delimits_count.lengthPrefixed
  have hoption := hvalue.option '-' (fun value => by simp) (fun value => by
    obtain ⟨c, rest, hdigits, hc⟩ := natText_head value.length
    rw [hdigits]
    rintro h
    cases h
    exact absurd hc (by decide))
  have heq : token = fun value : Option Text =>
      value.elim ['-'] fun value => natText value.length ++ [':'] ++ value := by
    funext value
    cases value with
    | none => rfl
    | some value => simp [token]
  rw [heq]
  exact hoption

/-- One dimension as the text has it. -/
def dimensionText (d : Text × Text) : Text := ('|' :: token (some d.1)) ++ '=' :: token (some d.2)

theorem delimits_dimension : Delimits dimensionText := by
  have hname : Delimits fun name : Text => ['|'] ++ token (some name) := by
    intro a b rest rest' h
    obtain ⟨heq, hrest⟩ := (delimits_token.prefixed ['|']) h
    exact ⟨Option.some.inj heq, hrest⟩
  have hvalue : Delimits fun value : Text => ['='] ++ token (some value) := by
    intro a b rest rest' h
    obtain ⟨heq, hrest⟩ := (delimits_token.prefixed ['=']) h
    exact ⟨Option.some.inj heq, hrest⟩
  exact hname.pair hvalue

/-- The dimensions in the order of their names. -/
def sortedDimensions (dimensions : Dict Text Text) : List (Text × Text) :=
  (sortedBy id dimensions.keys).filterMap fun name =>
    (dimensions.get? name).map fun value => (name, value)

theorem mem_sortedDimensions {dimensions : Dict Text Text} {name value : Text} :
    (name, value) ∈ sortedDimensions dimensions ↔ dimensions.get? name = some value := by
  unfold sortedDimensions
  rw [List.mem_filterMap]
  constructor
  · rintro ⟨name', -, h⟩
    obtain ⟨value', hvalue, heq⟩ := Option.map_eq_some_iff.mp h
    cases heq
    exact hvalue
  · intro h
    exact ⟨name, mem_sortedBy.mpr (Dict.mem_keys_iff.mpr ⟨value, h⟩), by rw [h]; rfl⟩

theorem map_fst_sortedDimensions (dimensions : Dict Text Text) :
    (sortedDimensions dimensions).map Prod.fst = sortedBy id dimensions.keys := by
  unfold sortedDimensions
  rw [List.map_filterMap]
  have hall : ∀ name ∈ sortedBy id dimensions.keys,
      ((dimensions.get? name).map fun value => (name, value)).map Prod.fst = some name := by
    intro name hname
    obtain ⟨value, hvalue⟩ := Dict.mem_keys_iff.mp (mem_sortedBy.mp hname)
    rw [hvalue]
    rfl
  rw [List.filterMap_congr hall, List.filterMap_some]

theorem perm_sortedDimensions (dimensions : Dict Text Text) :
    (sortedDimensions dimensions).Perm dimensions.entries := by
  have hsorted : (sortedDimensions dimensions).Nodup := by
    apply List.Nodup.of_map Prod.fst
    rw [map_fst_sortedDimensions, (perm_sortedBy id _).nodup_iff]
    exact dimensions.keys_nodup
  have hentries : dimensions.entries.Nodup := List.Nodup.of_map Prod.fst dimensions.nodup
  rw [List.perm_ext_iff_of_nodup hsorted hentries]
  rintro ⟨name, value⟩
  rw [mem_sortedDimensions, Dict.get?_eq_some]

/-- Two maps are told apart by their dimensions in order. -/
theorem sortedDimensions_eq_iff {d d' : Dict Text Text} :
    sortedDimensions d = sortedDimensions d' ↔ ∀ name, d.get? name = d'.get? name := by
  constructor
  · intro h name
    refine Option.ext fun value => ?_
    rw [← mem_sortedDimensions, ← mem_sortedDimensions, h]
  · intro h
    have hkeys : d.keys.Perm d'.keys := by
      rw [List.perm_ext_iff_of_nodup d.keys_nodup d'.keys_nodup]
      intro name
      rw [Dict.mem_keys_iff, Dict.mem_keys_iff, h]
    unfold sortedDimensions
    rw [sortedBy_id_eq hkeys]
    exact List.filterMap_congr fun name _ => by rw [h]

/-- The text of an identity: the contract, nine columns and the dimensions in order. -/
theorem variantIdentityText_eq (manufacturer commercialModel : Option Text)
    (modelYearStart modelYearEnd : Option ℤ)
    (officialModelCode trim registerManufacturerCode registerModelCode vehicleTypeCode : Option Text)
    (dimensions : Dict Text Text) :
    variantIdentityText manufacturer commercialModel modelYearStart modelYearEnd officialModelCode
        trim registerManufacturerCode registerModelCode vehicleTypeCode (some dimensions) =
      variantIdentityContract ++ (([manufacturer, commercialModel, yearText modelYearStart,
        yearText modelYearEnd, officialModelCode, trim, registerManufacturerCode, registerModelCode,
        vehicleTypeCode].flatMap fun column => ['|'] ++ token column) ++
        (sortedDimensions dimensions).flatMap dimensionText) := by
  unfold variantIdentityText
  dsimp only [Option.getD_some]
  have hnamed : (sortedBy id dimensions.keys).filterMap (fun name =>
      (dimensions.get? name).map fun value => token (some name) ++ '=' :: token (some value)) =
      (sortedDimensions dimensions).map fun d => token (some d.1) ++ '=' :: token (some d.2) := by
    unfold sortedDimensions
    rw [List.map_filterMap]
    simp only [Option.map_map, Function.comp_def]
  rw [hnamed, List.cons_append, intercalate_cons_eq_flatMap, List.flatMap_append, List.flatMap_map,
    List.flatMap_map]
  rfl

theorem intText_option_injective {year year' : Option ℤ} (h : yearText year = yearText year') :
    year = year' :=
  Option.map_injective (fun _ _ h => intText_injective h) h

/-! ## 4. The database sorts the names alike -/

/-- The bytes of a code point in UTF-8. -/
def utf8Bytes (v : ℕ) : List ℕ :=
  if v ≤ 0x7f then [v]
  else if v ≤ 0x7ff then [v / 64 + 0xc0, v % 64 + 0x80]
  else if v ≤ 0xffff then [v / 4096 + 0xe0, v / 64 % 64 + 0x80, v % 64 + 0x80]
  else [v / 262144 + 0xf0, v / 4096 % 64 + 0x80, v / 64 % 64 + 0x80, v % 64 + 0x80]

theorem map_utf8EncodeChar (c : Char) :
    (String.utf8EncodeChar c).map UInt8.toNat = utf8Bytes c.toNat := by
  have hbound : c.toNat < 0x110000 := by
    rcases c.valid with h | ⟨-, h⟩
    · exact Nat.lt_trans h (by decide)
    · exact h
  unfold String.utf8EncodeChar utf8Bytes
  change List.map UInt8.toNat (if c.toNat ≤ 0x7f then _ else if c.toNat ≤ 0x7ff then _ else
    if c.toNat ≤ 0xffff then _ else _) = _
  generalize hv : c.val.toNat = v
  have hv' : c.toNat = v := hv
  rw [hv'] at hbound ⊢
  split_ifs <;> simp only [List.map_cons, List.map_nil, UInt8.toNat_ofNat', List.cons.injEq,
    and_true] <;> omega

theorem firstLess_utf8Bytes {v w : ℕ} (h : v < w) : FirstLess (utf8Bytes v) (utf8Bytes w) := by
  unfold utf8Bytes
  split_ifs
  · exact firstLess_cons (.inl h)
  · exact firstLess_cons (.inl (by omega))
  · exact firstLess_cons (.inl (by omega))
  · exact firstLess_cons (.inl (by omega))
  · omega
  · rcases Nat.lt_or_ge (v / 64) (w / 64) with hfirst | hfirst
    · exact firstLess_cons (.inl (by omega))
    · exact firstLess_cons (.inr ⟨by omega, firstLess_cons (.inl (by omega))⟩)
  · exact firstLess_cons (.inl (by omega))
  · exact firstLess_cons (.inl (by omega))
  · omega
  · omega
  · rcases Nat.lt_or_ge (v / 4096) (w / 4096) with hfirst | hfirst
    · exact firstLess_cons (.inl (by omega))
    · rcases Nat.lt_or_ge (v / 64) (w / 64) with hsecond | hsecond
      · exact firstLess_cons (.inr ⟨by omega, firstLess_cons (.inl (by omega))⟩)
      · exact firstLess_cons (.inr ⟨by omega, firstLess_cons (.inr ⟨by omega,
          firstLess_cons (.inl (by omega))⟩)⟩)
  · exact firstLess_cons (.inl (by omega))
  · omega
  · omega
  · omega
  · rcases Nat.lt_or_ge (v / 262144) (w / 262144) with hfirst | hfirst
    · exact firstLess_cons (.inl (by omega))
    · rcases Nat.lt_or_ge (v / 4096) (w / 4096) with hsecond | hsecond
      · exact firstLess_cons (.inr ⟨by omega, firstLess_cons (.inl (by omega))⟩)
      · rcases Nat.lt_or_ge (v / 64) (w / 64) with hthird | hthird
        · exact firstLess_cons (.inr ⟨by omega, firstLess_cons (.inr ⟨by omega,
            firstLess_cons (.inl (by omega))⟩)⟩)
        · exact firstLess_cons (.inr ⟨by omega, firstLess_cons (.inr ⟨by omega,
            firstLess_cons (.inr ⟨by omega, firstLess_cons (.inl (by omega))⟩)⟩)⟩)
theorem collateC_le_iff {text text' : Text} : collateC text ≤ collateC text' ↔ text ≤ text' := by
  refine flatMap_le_flatMap_iff (fun c => ?_) fun c d h => ?_
  · simp
  · rw [map_utf8EncodeChar, map_utf8EncodeChar]
    exact firstLess_utf8Bytes h

/-- An object of texts as `jsonb` holds it: its members in any order. -/
def textMembers (members : List (Text × Text)) : List (Text × Jsonb) :=
  members.map fun d => (d.1, .str d.2)

/-- The members by the bytes of their names are the dimensions by their names. -/
theorem sortedBy_collateC {dimensions : Dict Text Text} {members : List (Text × Text)}
    (hmembers : members.Perm dimensions.entries) :
    sortedBy (fun d : Text × Jsonb => collateC d.1) (textMembers members) =
      textMembers (sortedDimensions dimensions) := by
  have hperm : (textMembers members).Perm (textMembers (sortedDimensions dimensions)) :=
    (hmembers.trans (perm_sortedDimensions dimensions).symm).map _
  refine List.Perm.eq_of_pairwise ?_ (pairwise_sortedBy _ _) ?_ ((perm_sortedBy _ _).trans hperm)
  · intro a b ha hb hab hba
    obtain ⟨⟨name, value⟩, hd, rfl⟩ := List.mem_map.mp (mem_sortedBy.mp ha)
    obtain ⟨⟨name', value'⟩, hd', rfl⟩ := List.mem_map.mp hb
    have hname : name = name' := le_antisymm (collateC_le_iff.mp hab) (collateC_le_iff.mp hba)
    have hvalue := Dict.get?_eq_some.mpr (hmembers.subset hd)
    rw [hname, mem_sortedDimensions.mp hd'] at hvalue
    cases hvalue
    rw [hname]
  · unfold textMembers
    rw [List.pairwise_map]
    have hsorted := pairwise_sortedBy id dimensions.keys
    rw [← map_fst_sortedDimensions, List.pairwise_map] at hsorted
    exact hsorted.imp fun h => collateC_le_iff.mpr h

theorem catalogVariantIdentityToken_eq (value : Option Text) :
    catalogVariantIdentityToken value = token value := by
  cases value <;> rfl

theorem yearText_pgInteger (year : Option PgInteger) :
    (year.map fun n => intText n) = yearText (year.map Subtype.val) := by
  cases year <;> rfl

/-! ## 5. One text for one identity -/

/-- Two identities with the same columns and the same dimensions as maps. -/
structure VariantIdentity.Same (v v' : VariantIdentity) : Prop where
  manufacturer : v.manufacturer = v'.manufacturer
  commercialModel : v.commercialModel = v'.commercialModel
  modelYearStart : v.modelYearStart = v'.modelYearStart
  modelYearEnd : v.modelYearEnd = v'.modelYearEnd
  officialModelCode : v.officialModelCode = v'.officialModelCode
  trim : v.trim = v'.trim
  registerManufacturerCode : v.registerManufacturerCode = v'.registerManufacturerCode
  registerModelCode : v.registerModelCode = v'.registerModelCode
  vehicleTypeCode : v.vehicleTypeCode = v'.vehicleTypeCode
  identityDimensions : ∀ name, v.identityDimensions.get? name = v'.identityDimensions.get? name

theorem text_eq_iff (v v' : VariantIdentity) : v.text = v'.text ↔ v.Same v' := by
  unfold VariantIdentity.text
  rw [variantIdentityText_eq, variantIdentityText_eq]
  constructor
  · intro h
    have hparts := List.append_cancel_left h
    obtain ⟨hcolumns, hdimensions⟩ :=
      (delimits_token.prefixed ['|']).flatMap_append_inj (by rfl) hparts
    have hsorted := delimits_dimension.flatMap_inj (fun d => by simp [dimensionText]) hdimensions
    simp only [List.cons.injEq, and_true] at hcolumns
    obtain ⟨hmake, hmodel, hfirst, hlast, hcode, htrim, hregister, hregisterModel, htype⟩ := hcolumns
    exact ⟨hmake, hmodel, intText_option_injective hfirst, intText_option_injective hlast, hcode,
      htrim, hregister, hregisterModel, htype, sortedDimensions_eq_iff.mp hsorted⟩
  · rintro ⟨hmake, hmodel, hfirst, hlast, hcode, htrim, hregister, hregisterModel, htype, hdimensions⟩
    rw [hmake, hmodel, hfirst, hlast, hcode, htrim, hregister, hregisterModel, htype,
      sortedDimensions_eq_iff.mpr hdimensions]

theorem catalogVariantIdentityText_eq (v : VariantIdentity) (modelYearStart modelYearEnd : Option PgInteger)
    (hfirst : v.modelYearStart = modelYearStart.map Subtype.val)
    (hlast : v.modelYearEnd = modelYearEnd.map Subtype.val) {members : List (Text × Text)}
    (hmembers : members.Perm v.identityDimensions.entries) :
    catalogVariantIdentityText v.manufacturer v.commercialModel modelYearStart modelYearEnd
        v.officialModelCode v.trim v.registerManufacturerCode v.registerModelCode v.vehicleTypeCode
        (some (.obj (textMembers members))) = .ok v.text := by
  unfold catalogVariantIdentityText VariantIdentity.text
  rw [variantIdentityText_eq, hfirst, hlast]
  show Except.ok _ = _
  rw [sortedBy_collateC hmembers]
  simp only [catalogVariantIdentityToken_eq, yearText_pgInteger, textMembers, List.flatMap_map,
    rendered]
  simp only [List.flatMap_cons, List.flatMap_nil, List.append_assoc, List.cons_append,
    List.nil_append, List.append_nil]
  rfl

/-- The text of an identity determines its columns and its dimensions as a map, and the database
    builds the same text. -/
theorem variantIdentityText_determines :
    (∀ v v' : VariantIdentity, v.text = v'.text ↔ v.Same v') ∧
      ∀ (v : VariantIdentity) (modelYearStart modelYearEnd : Option PgInteger)
        (members : List (Text × Text)), v.modelYearStart = modelYearStart.map Subtype.val →
        v.modelYearEnd = modelYearEnd.map Subtype.val →
        members.Perm v.identityDimensions.entries →
        catalogVariantIdentityText v.manufacturer v.commercialModel modelYearStart modelYearEnd
          v.officialModelCode v.trim v.registerManufacturerCode v.registerModelCode
          v.vehicleTypeCode (some (.obj (textMembers members))) = .ok v.text :=
  ⟨text_eq_iff, fun v _ _ _ hfirst hlast hmembers =>
    catalogVariantIdentityText_eq v _ _ hfirst hlast hmembers⟩

/-- A variant whose names look like separators. -/
def separatorVariant : VariantIdentity where
  manufacturer := some "3:a|".toList
  commercialModel := some []
  modelYearStart := some 2019
  modelYearEnd := none
  officialModelCode := some "-".toList
  trim := none
  registerManufacturerCode := some "1".toList
  registerModelCode := none
  vehicleTypeCode := none
  identityDimensions :=
    ⟨[("fuel=".toList, "1:b".toList), ("body".toList, "|".toList)], by decide⟩

theorem variantIdentityText_determines_separatorVariant :
    catalogVariantIdentityText (some "3:a|".toList) (some []) (some ⟨2019, by decide⟩) none
        (some "-".toList) none (some "1".toList) none none
        (some (.obj (textMembers [("body".toList, "|".toList), ("fuel=".toList, "1:b".toList)]))) =
      .ok "milo-variant-identity/2|4:3:a||0:|4:2019|-|1:-|-|1:1|-|-|4:body=1:||5:fuel==3:1:b".toList :=
  (variantIdentityText_determines.2 separatorVariant (some ⟨2019, by decide⟩) none
    [("body".toList, "|".toList), ("fuel=".toList, "1:b".toList)] rfl rfl
    (by decide)).trans (by decide +kernel)

end Milo.Catalog
