import Apartments.Hostaway.Listings
import Apartments.Lib.Run
import Apartments.Lib.Table
import Apartments.Lib.Traverse
import Apartments.Text
import Mathlib.Data.Prod.Lex

/-!
# The photo gallery (`_normalize_images`, `_sync_images`, `properties/admin.py`)

The rows of all properties with their constraints, the loop that binds the images of a listing to them, and what the
owner can do to them. A gallery is reached by syncs, which are rolled back when they fail, and by edits of the owner.
-/

namespace Apartments.PhotoGallery

open PropertySync (optionalPositiveInteger)
open Machine

structure ParsedUrl where
  scheme : String
  hostname : String
  username : String
  password : String
deriving DecidableEq

/-- `urlparse`, which may raise, and the hash of the keys. -/
structure Library where
  urlparse : String → Option ParsedUrl
  sha256 : String → String
  urlparse_empty : ∀ u, urlparse "" = some u → u.hostname = ""

/-- An image of the payload: its numbers as `_integer` reads them, its texts as `_string` does, and its time as
`_optional_datetime` does. -/
structure ImagePayload where
  id : Option (Option ℤ)
  url : String
  caption : String
  sortOrder : Option (Option ℤ)
  updatedOn : Except String (Option Time)

structure HostawayListingImage where
  imageId : Option ℕ
  url : String
  caption : String
  sortOrder : ℕ
  sourceUpdatedAt : Option Time
deriving DecidableEq

inductive Source
  | hostaway
  | localFile
deriving DecidableEq

structure Texts where
  titleAr : String
  titleEn : String
  titleFr : String
  altTextAr : String
  altTextEn : String
  altTextFr : String
  captionAr : String
  captionEn : String
  captionFr : String
deriving DecidableEq

/-- What the owner can edit. -/
structure OwnerFields where
  property : ℕ
  image : String
  texts : Texts
  sortOrder : ℕ
  isCover : Bool
  isCityHero : Bool
  isVisible : Bool
deriving DecidableEq

structure PropertyImage extends OwnerFields where
  pk : ℕ
  source : Source
  hostawayImageId : Option ℕ
  hostawayUrl : String
  hostawayCaption : String
  syncKey : String
  hostawaySortOrder : ℕ
  isActiveAtSource : Bool
  sourceUpdatedAt : Option Time
deriving DecidableEq

/-- The table, with the last primary key that was given. -/
structure Gallery where
  rows : List PropertyImage
  sequence : ℕ
deriving DecidableEq

inductive ReadError
  | response (message : String)
  | raised
deriving DecidableEq

inductive DatabaseError
  | data
  | integrity
deriving DecidableEq

/-! ### The images of a listing -/

/-- The key of an image with this id and URL. -/
def keyOf (sha256 : String → String) (imageId : Option ℕ) (url : String) : String :=
  match imageId with
  | some i => "id:" ++ toString i
  | none => "url:" ++ sha256 url

def HostawayListingImage.syncKey (sha256 : String → String) (image : HostawayListingImage) : String :=
  keyOf sha256 image.imageId image.url

/-- `_https_url`. -/
def httpsUrl (lib : Library) (value : String) : Except ReadError String := do
  let url := Text.strip value
  let parsed ← found (lib.urlparse url) .raised
  raiseIf (parsed.scheme.toLower ≠ "https" ∨ parsed.hostname = "" ∨ parsed.username ≠ "" ∨ parsed.password ≠ "" ∨
    2048 < url.length) (.response "image URL must be a safe HTTPS URL")
  return url

/-- `_hostaway_image_url`. -/
def hostawayImageUrl (lib : Library) (value : String) : Except ReadError String := do
  let url ← httpsUrl lib value
  let parsed ← found (lib.urlparse url) .raised
  let hostname := Text.casefold parsed.hostname
  raiseIf (hostname = "muscache.com" ∨ ".muscache.com".toList <:+ hostname.toList)
    (.response "url must not use an external marketplace CDN")
  return url

/-- `_optional_nonnegative_integer`. -/
def optionalNonnegativeInteger (parsed : Option (Option ℤ)) (fieldName : String) : Except String (Option ℕ) :=
  match parsed with
  | none => .ok none
  | some none => .error (fieldName ++ " must be an integer")
  | some (some n) => if n < 0 then .error (fieldName ++ " cannot be negative") else .ok (some n.toNat)

/-- The image of one payload; `none` is a payload that is not an object. -/
def readImage (lib : Library) (payload : Option ImagePayload) : Except ReadError HostawayListingImage := do
  let p ← found payload (.response "must be an object")
  let imageId ← (optionalPositiveInteger p.id "id").mapError .response
  let url ← hostawayImageUrl lib p.url
  let sortOrder ← (optionalNonnegativeInteger p.sortOrder "sortOrder").mapError .response
  let updatedAt ← p.updatedOn.mapError .response
  return ⟨imageId, url, p.caption, sortOrder.getD 0, updatedAt⟩

/-- The loop of `_normalize_images` from the payload with this index. -/
def normalizeFrom (lib : Library) : ℕ → List HostawayListingImage → List String → List (Option ImagePayload) →
    Except ReadError (List HostawayListingImage × List String)
  | _, images, errors, [] => .ok (images, errors)
  | index, images, errors, payload :: payloads =>
    match readImage lib payload with
    | .error .raised => .error .raised
    | .error (.response message) =>
      normalizeFrom lib (index + 1) images (errors ++ ["image " ++ toString index ++ ": " ++ message]) payloads
    | .ok image =>
      if image.syncKey lib.sha256 ∈ images.map (·.syncKey lib.sha256) then
        normalizeFrom lib (index + 1) images (errors ++ ["image " ++ toString index ++ ": duplicate source key"]) payloads
      else normalizeFrom lib (index + 1) (images ++ [image]) errors payloads

def normalizeImages (lib : Library) (payloads : List (Option ImagePayload)) :
    Except ReadError (List HostawayListingImage × List String) := normalizeFrom lib 0 [] [] payloads

/-! ### The table -/

/-- Two rows that no unique constraint forbids to stand together. -/
structure Compatible (a b : PropertyImage) : Prop where
  imageId : ∀ i ∈ a.hostawayImageId, b.hostawayImageId ≠ some i
  syncKey : a.property = b.property → a.source = .hostaway → b.source = .hostaway → a.syncKey ≠ b.syncKey
  cover : a.property = b.property → (a.isCover && a.isVisible) = true → (b.isCover && b.isVisible) = false
  hero : a.property = b.property → (a.isCityHero && a.isVisible) = true → (b.isCityHero && b.isVisible) = false

instance (a b : PropertyImage) : Decidable (Compatible a b) :=
  decidable_of_iff
    ((∀ i ∈ a.hostawayImageId, b.hostawayImageId ≠ some i) ∧
      (a.property = b.property → a.source = .hostaway → b.source = .hostaway → a.syncKey ≠ b.syncKey) ∧
      (a.property = b.property → (a.isCover && a.isVisible) = true → (b.isCover && b.isVisible) = false) ∧
      (a.property = b.property → (a.isCityHero && a.isVisible) = true → (b.isCityHero && b.isVisible) = false))
    ⟨fun ⟨h1, h2, h3, h4⟩ => ⟨h1, h2, h3, h4⟩, fun h => ⟨h.imageId, h.syncKey, h.cover, h.hero⟩⟩

/-- The row has a photo, and its values fit their columns. -/
def Fits (r : PropertyImage) : Prop :=
  (r.hostawayUrl ≠ "" ∨ r.image ≠ "") ∧ r.hostawayUrl.length ≤ 2048 ∧ r.hostawayCaption.length ≤ 500 ∧
    (∀ i ∈ r.hostawayImageId, i < 2 ^ 63) ∧ r.sortOrder < 2 ^ 31 ∧ r.hostawaySortOrder < 2 ^ 31

instance (r : PropertyImage) : Decidable (Fits r) := by unfold Fits; infer_instance

/-- What the database says to a row that is written. -/
def accepts (rows : List PropertyImage) (row : PropertyImage) : Except DatabaseError Unit := do
  raiseIf (¬ Fits row) .data
  raiseIf (∃ r ∈ rows, r.pk ≠ row.pk ∧ ¬ Compatible r row) .integrity

def put (rows : List PropertyImage) (row : PropertyImage) : List PropertyImage :=
  Table.modify (·.pk) rows row.pk fun _ => row

/-! ### The sync -/

/-- `ordering = ["sort_order", "hostaway_sort_order", "id"]`. -/
def PropertyImage.sortKey (r : PropertyImage) : ℕ ×ₗ ℕ ×ₗ ℕ := toLex (r.sortOrder, toLex (r.hostawaySortOrder, r.pk))

/-- `.filter(..).first()`. -/
def firstRow (rows : List PropertyImage) (p : PropertyImage → Bool) : Option PropertyImage :=
  Table.first (fun a b => decide (a.sortKey < b.sortKey)) (rows.filter p)

/-- The row of an image: by its id, by its URL, by its key. -/
def findImage (sha256 : String → String) (rows : List PropertyImage) (property : ℕ) (image : HostawayListingImage) :
    Option PropertyImage :=
  (image.imageId.bind fun i => firstRow rows fun r => r.property == property && r.hostawayImageId == some i) <|>
  (firstRow rows fun r => r.property == property && r.hostawayUrl == image.url && r.source == .hostaway) <|>
  (firstRow rows fun r => r.property == property && r.syncKey == image.syncKey sha256 && r.source == .hostaway)

/-- The row after the image has been written to it. -/
def PropertyImage.write (sha256 : String → String) (image : HostawayListingImage) (r : PropertyImage) : PropertyImage :=
  { r with
    hostawayImageId := image.imageId
    hostawayUrl := image.url
    hostawayCaption := image.caption
    syncKey := image.syncKey sha256
    hostawaySortOrder := image.sortOrder
    isActiveAtSource := true
    sourceUpdatedAt := image.sourceUpdatedAt }

def Texts.empty : Texts := ⟨"", "", "", "", "", "", "", "", ""⟩

/-- The row that is created for an image. -/
def createdRow (sha256 : String → String) (pk property : ℕ) (image : HostawayListingImage) : PropertyImage where
  property := property
  image := ""
  texts := Texts.empty
  sortOrder := image.sortOrder
  isCover := false
  isCityHero := false
  isVisible := true
  pk := pk
  source := .hostaway
  hostawayImageId := image.imageId
  hostawayUrl := image.url
  hostawayCaption := image.caption
  syncKey := image.syncKey sha256
  hostawaySortOrder := image.sortOrder
  isActiveAtSource := true
  sourceUpdatedAt := image.sourceUpdatedAt

/-- The variables of the loop. -/
structure Binding where
  gallery : Gallery
  activePks : List ℕ
  created : ℕ
  updated : ℕ
deriving DecidableEq

def Binding.start (g : Gallery) : Binding := ⟨g, [], 0, 0⟩

/-- One round of the loop. -/
def bindImage (sha256 : String → String) (property : ℕ) (s : Binding) (image : HostawayListingImage) :
    Except DatabaseError Binding :=
  match findImage sha256 s.gallery.rows property image with
  | none => do
    let row := createdRow sha256 (s.gallery.sequence + 1) property image
    accepts s.gallery.rows row
    return ⟨⟨s.gallery.rows ++ [row], row.pk⟩, s.activePks ++ [row.pk], s.created + 1, s.updated⟩
  | some r => do
    let row := r.write sha256 image
    accepts s.gallery.rows row
    return ⟨{ s.gallery with rows := put s.gallery.rows row }, s.activePks ++ [row.pk], s.created, s.updated + 1⟩

/-- A row that the listing has no image for any more. -/
def stale (property : ℕ) (activePks : List ℕ) (r : PropertyImage) : Bool :=
  r.property == property && r.source == .hostaway && r.isActiveAtSource && !activePks.contains r.pk

/-- The row after the sync has ended. -/
def settled (property : ℕ) (activePks : List ℕ) (r : PropertyImage) : PropertyImage :=
  if stale property activePks r = true then { r with isActiveAtSource := false } else r

/-- The end of the sync. -/
def deactivate (property : ℕ) (s : Binding) : Gallery :=
  { s.gallery with rows := s.gallery.rows.map (settled property s.activePks) }

/-- `_sync_images`: the gallery and the three counts. -/
def syncImages (sha256 : String → String) (g : Gallery) (property : ℕ) (images : List HostawayListingImage) :
    Except DatabaseError (Gallery × ℕ × ℕ × ℕ) := do
  let s ← images.foldlM (bindImage sha256 property) (Binding.start g)
  return (deactivate property s, s.created, s.updated, s.gallery.rows.countP (stale property s.activePks))

/-! ### The owner -/

/-- The row becomes the visible cover of its property, if it is one. -/
def demoteCovers (row : PropertyImage) (rows : List PropertyImage) : List PropertyImage :=
  if row.isCover && row.isVisible then
    rows.map fun r =>
      if r.property = row.property ∧ (r.isCover && r.isVisible) = true ∧ r.pk ≠ row.pk then { r with isCover := false }
      else r
  else rows

/-- `_demote_other_city_heroes`, by the cities of the properties. -/
def demoteOtherCityHeroes (city : ℕ → String) (row : PropertyImage) (rows : List PropertyImage) : List PropertyImage :=
  if (row.isCityHero && row.isVisible) = true ∧ city row.property ≠ "" then
    rows.map fun r =>
      if city r.property = city row.property ∧ r.isCityHero = true ∧ r.pk ≠ row.pk then { r with isCityHero := false }
      else r
  else rows

/-- `clean`: a photo of the owner has a file, a photo of the channel a URL. -/
def clean (r : PropertyImage) : Bool :=
  match r.source with
  | .localFile => r.image != ""
  | .hostaway => r.hostawayUrl != ""

/-- A photo that the owner adds. -/
def localRow (pk : ℕ) (fields : OwnerFields) : PropertyImage :=
  { fields with
    pk := pk
    source := .localFile
    hostawayImageId := none
    hostawayUrl := ""
    hostawayCaption := ""
    syncKey := ""
    hostawaySortOrder := 0
    isActiveAtSource := true
    sourceUpdatedAt := none }

/-- `save_model` of a row that is there or is added at the end; a row that is refused changes nothing. -/
def saveModel (city : ℕ → String) (g : Gallery) (row : PropertyImage) : Gallery :=
  if clean row = false then g
  else
    let rows := demoteCovers row g.rows
    match accepts rows row with
    | .error _ => g
    | .ok () =>
      if row.pk ≤ g.sequence then { g with rows := demoteOtherCityHeroes city row (put rows row) }
      else ⟨demoteOtherCityHeroes city row (rows ++ [row]), row.pk⟩

/-- A posted alternative text. -/
def posted (value : Option String) (old : String) : String :=
  match value with
  | none => old
  | some value => String.ofList ((Text.strip value).toList.take 255)

/-- The form with the alternative texts of a property. -/
def saveAltTexts (g : Gallery) (property : ℕ) (ar en fr : ℕ → Option String) : Gallery :=
  { g with rows := g.rows.map fun r =>
      if r.property = property then
        { r with texts := { r.texts with
            altTextAr := posted (ar r.pk) r.texts.altTextAr
            altTextEn := posted (en r.pk) r.texts.altTextEn
            altTextFr := posted (fr r.pk) r.texts.altTextFr } }
      else r }

inductive Action
  | sync (property : ℕ) (payloads : List (Option ImagePayload))
  | add (city : ℕ → String) (fields : OwnerFields)
  | edit (city : ℕ → String) (pk : ℕ) (fields : OwnerFields)
  | altTexts (property : ℕ) (ar en fr : ℕ → Option String)
  | remove (pk : ℕ)

/-- A sync of one listing, or an edit of the owner. -/
def step (lib : Library) (g : Gallery) : Action → Gallery
  | .sync property payloads =>
    match normalizeImages lib payloads with
    | .error _ => g
    | .ok (images, _) =>
      match syncImages lib.sha256 g property images with
      | .error _ => g
      | .ok (g', _) => g'
  | .add city fields => saveModel city g (localRow (g.sequence + 1) fields)
  | .edit city pk fields =>
    match Table.get (·.pk) g.rows pk with
    | none => g
    | some r => saveModel city g { r with toOwnerFields := fields }
  | .altTexts property ar en fr => saveAltTexts g property ar en fr
  | .remove pk => { g with rows := g.rows.filter fun r => !(r.pk == pk && r.source == .localFile) }

def Gallery.empty : Gallery := ⟨[], 0⟩

end Apartments.PhotoGallery
