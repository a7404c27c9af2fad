import Apartments.Hostaway.Gallery

/-!
# The gallery mirrors the channel (`property_services.py`)

A sync leaves one active row for every image of the listing, and a second sync leaves the rows as they are, exactly when
every image of both has a row of its own (`Lone`). Where two images share a URL, the lookup by URL may lead to the row
of an earlier image.
-/

namespace Apartments.PhotoGallery

open Machine

/-! ### The galleries that are reached -/

/-- What holds of every gallery that is reached by syncs and edits. -/
structure Sound (sha256 : String → String) (g : Gallery) : Prop where
  nodup : (g.rows.map (·.pk)).Nodup
  pk_le : ∀ r ∈ g.rows, r.pk ≤ g.sequence
  fits : ∀ r ∈ g.rows, Fits r
  compatible : ∀ a ∈ g.rows, ∀ b ∈ g.rows, a.pk ≠ b.pk → Compatible a b
  keyed : ∀ r ∈ g.rows, r.source = .hostaway → r.syncKey = keyOf sha256 r.hostawayImageId r.hostawayUrl
  bare : ∀ r ∈ g.rows, r.source = .localFile → r.hostawayImageId = none

/-- A row that may stand in a gallery by itself. -/
structure Proper (sha256 : String → String) (r : PropertyImage) : Prop where
  keyed : r.source = .hostaway → r.syncKey = keyOf sha256 r.hostawayImageId r.hostawayUrl
  bare : r.source = .localFile → r.hostawayImageId = none

variable {sha256 : String → String} {g : Gallery} {rows : List PropertyImage} {a b r row : PropertyImage}

theorem Compatible.symm (h : Compatible a b) : Compatible b a where
  imageId := fun i hb ha => h.imageId i ha hb
  syncKey := fun hp hb ha heq => h.syncKey hp.symm ha hb heq.symm
  cover := by
    intro hp hb
    cases ha : a.isCover && a.isVisible with
    | false => rfl
    | true =>
      rw [h.cover hp.symm ha] at hb
      cases hb
  hero := by
    intro hp hb
    cases ha : a.isCityHero && a.isVisible with
    | false => rfl
    | true =>
      rw [h.hero hp.symm ha] at hb
      cases hb

theorem accepts_eq_ok {u : Unit} :
    accepts rows row = .ok u ↔ Fits row ∧ ∀ r ∈ rows, r.pk ≠ row.pk → Compatible r row := by
  simp only [accepts, bind_eq_ok, raiseIf_eq_ok, not_not, exists_const, not_exists, not_and]

theorem mem_put : b ∈ put rows row ↔ (b = row ∧ ∃ a ∈ rows, a.pk = row.pk) ∨ (b ∈ rows ∧ b.pk ≠ row.pk) := by
  unfold put
  rw [Table.mem_modify]
  constructor
  · rintro ⟨a, ha, hb⟩
    split at hb
    next heq => exact .inl ⟨hb.symm, a, ha, heq⟩
    next hne =>
      subst hb
      exact .inr ⟨ha, hne⟩
  · rintro (⟨rfl, a, ha, heq⟩ | ⟨hb, hne⟩)
    · exact ⟨a, ha, if_pos heq⟩
    · exact ⟨b, hb, if_neg hne⟩

theorem map_pk_put : (put rows row).map (·.pk) = rows.map (·.pk) := Table.map_key_modify fun _ _ => rfl

/-- A row that is written in the place of another one. -/
theorem Sound.put (hg : Sound sha256 g) (hr : r ∈ g.rows) (hpk : r.pk = row.pk) (hrow : Proper sha256 row)
    (hok : accepts g.rows row = .ok ()) : Sound sha256 { g with rows := put g.rows row } := by
  obtain ⟨hfits, hcompatible⟩ := accepts_eq_ok.1 hok
  constructor
  case nodup =>
    show ((PhotoGallery.put g.rows row).map (·.pk)).Nodup
    rw [map_pk_put]
    exact hg.nodup
  case pk_le =>
    intro b hb
    rcases mem_put.1 hb with ⟨rfl, -⟩ | ⟨hb, -⟩
    · rw [← hpk]
      exact hg.pk_le r hr
    · exact hg.pk_le b hb
  case fits =>
    intro b hb
    rcases mem_put.1 hb with ⟨rfl, -⟩ | ⟨hb, -⟩
    · exact hfits
    · exact hg.fits b hb
  case compatible =>
    intro a ha b hb hne
    rcases mem_put.1 ha with ⟨rfl, -⟩ | ⟨ha', hane⟩ <;> rcases mem_put.1 hb with ⟨rfl, -⟩ | ⟨hb', hbne⟩
    · exact absurd rfl hne
    · exact (hcompatible b hb' hbne).symm
    · exact hcompatible a ha' hane
    · exact hg.compatible a ha' b hb' hne
  case keyed =>
    intro b hb
    rcases mem_put.1 hb with ⟨rfl, -⟩ | ⟨hb, -⟩
    · exact hrow.keyed
    · exact hg.keyed b hb
  case bare =>
    intro b hb
    rcases mem_put.1 hb with ⟨rfl, -⟩ | ⟨hb, -⟩
    · exact hrow.bare
    · exact hg.bare b hb

/-- A row that is added with the next primary key. -/
theorem Sound.append (hg : Sound sha256 g) (hpk : row.pk = g.sequence + 1) (hrow : Proper sha256 row)
    (hok : accepts g.rows row = .ok ()) : Sound sha256 ⟨g.rows ++ [row], row.pk⟩ := by
  obtain ⟨hfits, hcompatible⟩ := accepts_eq_ok.1 hok
  have hnew : ∀ r ∈ g.rows, r.pk ≠ row.pk := by
    intro r hr heq
    have := hg.pk_le r hr
    omega
  constructor
  case nodup =>
    rw [List.map_append, List.nodup_append]
    refine ⟨hg.nodup, List.nodup_singleton _, ?_⟩
    intro x hx y hy
    obtain ⟨r, hr, rfl⟩ := List.mem_map.1 hx
    obtain rfl := List.mem_singleton.1 hy
    exact hnew r hr
  case pk_le =>
    intro b hb
    rcases List.mem_append.1 hb with hb | hb
    · have := hg.pk_le b hb
      show b.pk ≤ row.pk
      omega
    · rw [List.mem_singleton.1 hb]
  case fits =>
    intro b hb
    rcases List.mem_append.1 hb with hb | hb
    · exact hg.fits b hb
    · rw [List.mem_singleton.1 hb]
      exact hfits
  case compatible =>
    intro a ha b hb hne
    rcases List.mem_append.1 ha with ha' | ha' <;> rcases List.mem_append.1 hb with hb' | hb'
    · exact hg.compatible a ha' b hb' hne
    · obtain rfl := List.mem_singleton.1 hb'
      exact hcompatible a ha' hne
    · obtain rfl := List.mem_singleton.1 ha'
      exact (hcompatible b hb' hne.symm).symm
    · rw [List.mem_singleton.1 ha', List.mem_singleton.1 hb'] at hne
      exact absurd rfl hne
  case keyed =>
    intro b hb
    rcases List.mem_append.1 hb with hb | hb
    · exact hg.keyed b hb
    · rw [List.mem_singleton.1 hb]
      exact hrow.keyed
  case bare =>
    intro b hb
    rcases List.mem_append.1 hb with hb | hb
    · exact hg.bare b hb
    · rw [List.mem_singleton.1 hb]
      exact hrow.bare

/-- A row that is rewritten so that no constraint becomes stricter. -/
structure Eased (r r' : PropertyImage) : Prop where
  pk : r'.pk = r.pk
  property : r'.property = r.property
  source : r'.source = r.source
  imageId : r'.hostawayImageId = r.hostawayImageId
  url : r'.hostawayUrl = r.hostawayUrl
  caption : r'.hostawayCaption = r.hostawayCaption
  syncKey : r'.syncKey = r.syncKey
  image : r'.image = r.image
  sortOrder : r'.sortOrder = r.sortOrder
  hostawaySortOrder : r'.hostawaySortOrder = r.hostawaySortOrder
  cover : (r'.isCover && r'.isVisible) = true → (r.isCover && r.isVisible) = true
  hero : (r'.isCityHero && r'.isVisible) = true → (r.isCityHero && r.isVisible) = true

theorem Eased.refl (r : PropertyImage) : Eased r r := ⟨rfl, rfl, rfl, rfl, rfl, rfl, rfl, rfl, rfl, rfl, id, id⟩

theorem Eased.fits {r' : PropertyImage} (h : Eased r r') (hr : Fits r) : Fits r' := by
  unfold Fits
  rw [h.url, h.image, h.caption, h.imageId, h.sortOrder, h.hostawaySortOrder]
  exact hr

theorem Eased.compatible {a' b' : PropertyImage} (ha : Eased a a') (hb : Eased b b') (h : Compatible a b) :
    Compatible a' b' where
  imageId := by
    rw [ha.imageId, hb.imageId]
    exact h.imageId
  syncKey := by
    rw [ha.property, hb.property, ha.source, hb.source, ha.syncKey, hb.syncKey]
    exact h.syncKey
  cover := by
    intro hp hcover
    rw [ha.property, hb.property] at hp
    cases hb' : b'.isCover && b'.isVisible with
    | false => rfl
    | true =>
      have := h.cover hp (ha.cover hcover)
      rw [hb.cover hb'] at this
      exact this
  hero := by
    intro hp hhero
    rw [ha.property, hb.property] at hp
    cases hb' : b'.isCityHero && b'.isVisible with
    | false => rfl
    | true =>
      have := h.hero hp (ha.hero hhero)
      rw [hb.hero hb'] at this
      exact this

/-- Rows that are rewritten one by one so that no constraint becomes stricter. -/
theorem Sound.map {f : PropertyImage → PropertyImage} (hg : Sound sha256 g) (hf : ∀ r, Eased r (f r)) :
    Sound sha256 { g with rows := g.rows.map f } := by
  constructor
  case nodup =>
    show ((g.rows.map f).map (·.pk)).Nodup
    rw [List.map_map]
    have hpk : (fun r => r.pk) ∘ f = fun r : PropertyImage => r.pk := funext fun r => (hf r).pk
    rw [hpk]
    exact hg.nodup
  case pk_le =>
    intro r' hr'
    obtain ⟨r, hr, rfl⟩ := List.mem_map.1 hr'
    rw [(hf r).pk]
    exact hg.pk_le r hr
  case fits =>
    intro r' hr'
    obtain ⟨r, hr, rfl⟩ := List.mem_map.1 hr'
    exact (hf r).fits (hg.fits r hr)
  case compatible =>
    intro a' ha' b' hb' hne
    obtain ⟨a, ha, rfl⟩ := List.mem_map.1 ha'
    obtain ⟨b, hb, rfl⟩ := List.mem_map.1 hb'
    rw [(hf a).pk, (hf b).pk] at hne
    exact (hf a).compatible (hf b) (hg.compatible a ha b hb hne)
  case keyed =>
    intro r' hr' hsource
    obtain ⟨r, hr, rfl⟩ := List.mem_map.1 hr'
    rw [(hf r).source] at hsource
    rw [(hf r).syncKey, (hf r).imageId, (hf r).url]
    exact hg.keyed r hr hsource
  case bare =>
    intro r' hr' hsource
    obtain ⟨r, hr, rfl⟩ := List.mem_map.1 hr'
    rw [(hf r).source] at hsource
    rw [(hf r).imageId]
    exact hg.bare r hr hsource

/-! ### The images that are accepted -/

/-- What `_normalize_images` promises of its images. -/
structure Accepted (sha256 : String → String) (images : List HostawayListingImage) : Prop where
  keys : (images.map (·.syncKey sha256)).Nodup
  url : ∀ image ∈ images, image.url ≠ "" ∧ image.url.length ≤ 2048

variable {lib : Library} {image : HostawayListingImage} {images images' : List HostawayListingImage} {property : ℕ}
  {s s' : Binding}

theorem hostawayImageUrl_spec {value url : String} (h : hostawayImageUrl lib value = .ok url) :
    url ≠ "" ∧ url.length ≤ 2048 := by
  simp only [hostawayImageUrl, bind_eq_ok, pure_eq_ok] at h
  obtain ⟨_, h, _, -, _, -, rfl⟩ := h
  simp only [httpsUrl, bind_eq_ok, found_eq_ok, raiseIf_eq_ok, pure_eq_ok, not_or, not_lt] at h
  obtain ⟨parsed, hparsed, _, ⟨-, hhost, -, -, hlen⟩, rfl⟩ := h
  refine ⟨fun hempty => ?_, hlen⟩
  rw [hempty] at hparsed
  exact hhost (lib.urlparse_empty parsed hparsed)

theorem readImage_url {payload : Option ImagePayload} (h : readImage lib payload = .ok image) :
    image.url ≠ "" ∧ image.url.length ≤ 2048 := by
  simp only [readImage, bind_eq_ok, pure_eq_ok] at h
  obtain ⟨_, -, _, -, url, hurl, _, -, _, -, rfl⟩ := h
  exact hostawayImageUrl_spec hurl

theorem normalizeFrom_accepted {index : ℕ} {errors errors' : List String} {payloads : List (Option ImagePayload)}
    (hacc : Accepted lib.sha256 images) (h : normalizeFrom lib index images errors payloads = .ok (images', errors')) :
    Accepted lib.sha256 images' := by
  induction payloads generalizing index images errors with
  | nil =>
    obtain ⟨rfl, -⟩ := Prod.mk.inj (Except.ok.inj h)
    exact hacc
  | cons payload payloads ih =>
    unfold normalizeFrom at h
    split at h
    · cases h
    · exact ih hacc h
    next image himage =>
      split at h
      · exact ih hacc h
      next hnew =>
        refine ih ⟨?_, ?_⟩ h
        · rw [List.map_append, List.nodup_append]
          refine ⟨hacc.keys, List.nodup_singleton _, ?_⟩
          intro x hx y hy heq
          rw [heq, List.mem_singleton.1 hy] at hx
          exact hnew hx
        · intro i hi
          rcases List.mem_append.1 hi with hi | hi
          · exact hacc.url i hi
          · rw [List.mem_singleton.1 hi]
            exact readImage_url himage

theorem normalizeImages_accepted {errors : List String} {payloads : List (Option ImagePayload)}
    (h : normalizeImages lib payloads = .ok (images, errors)) : Accepted lib.sha256 images := by
  have hempty : Accepted lib.sha256 [] := ⟨List.nodup_nil, nofun⟩
  exact normalizeFrom_accepted hempty h

/-! ### The lookups -/

/-- Keys are equal when the ids are, or when there are none and the URLs are equal. -/
theorem keyOf_inj (collisionFree : Function.Injective sha256) {i j : Option ℕ} {u v : String}
    (h : keyOf sha256 i u = keyOf sha256 j v) : i = j ∧ (i = none → u = v) := by
  have hne : ∀ x y : String, "id:" ++ x ≠ "url:" ++ y := by
    intro x y heq
    have hlist := congrArg String.toList heq
    rw [String.toList_append, String.toList_append] at hlist
    exact absurd (List.cons.inj hlist).1 (by decide)
  match i, j with
  | some i, some j =>
    have hrepr : toString i = toString j := (String.append_right_inj "id:").1 h
    exact ⟨congrArg some (Nat.repr_injective hrepr), nofun⟩
  | none, none => exact ⟨rfl, fun _ => collisionFree ((String.append_right_inj "url:").1 h)⟩
  | some i, none => exact absurd h (hne _ _)
  | none, some j => exact absurd h.symm (hne _ _)

theorem mem_of_firstRow {p : PropertyImage → Bool} (h : firstRow rows p = some r) : r ∈ rows ∧ p r = true :=
  List.mem_filter.1 (Table.mem_of_first h)

theorem firstRow_eq_none {p : PropertyImage → Bool} : firstRow rows p = none ↔ ∀ r ∈ rows, p r = false := by
  unfold firstRow
  rw [Table.first_eq_none, List.filter_eq_nil_iff]
  simp

/-- No row of the property has the id of the image. -/
def NoId (rows : List PropertyImage) (property : ℕ) (image : HostawayListingImage) : Prop :=
  ∀ i ∈ image.imageId, ∀ r ∈ rows, r.property = property → r.hostawayImageId ≠ some i

theorem noId_of_firstRow
    (h : (image.imageId.bind fun i => firstRow rows fun r => r.property == property && r.hostawayImageId == some i) =
      none) : NoId rows property image := by
  intro i hi r hr hp hid
  rw [Option.mem_def.1 hi, Option.bind_some, firstRow_eq_none] at h
  have := h r hr
  simp [hp, hid] at this

/-- The row that is found has the id of the image, or its URL when no row has the id. -/
theorem findImage_spec (collisionFree : Function.Injective sha256) (hg : Sound sha256 g)
    (h : findImage sha256 g.rows property image = some r) :
    r ∈ g.rows ∧ r.property = property ∧ r.source = .hostaway ∧
      ((image.imageId ≠ none ∧ r.hostawayImageId = image.imageId) ∨
        (NoId g.rows property image ∧ r.hostawayUrl = image.url)) := by
  unfold findImage at h
  rw [Option.orElse_eq_orElse, Option.orElse_eq_or, Option.orElse_eq_or, Option.or_eq_some_iff, Option.or_eq_some_iff] at h
  rcases h with hid | ⟨hnoid, hurl | ⟨hnourl, hkey⟩⟩
  · obtain ⟨i, hi, hfirst⟩ := Option.bind_eq_some_iff.1 hid
    obtain ⟨hr, hp⟩ := mem_of_firstRow hfirst
    simp only [Bool.and_eq_true, beq_iff_eq] at hp
    refine ⟨hr, hp.1, ?_, .inl ⟨?_, ?_⟩⟩
    · cases hsource : r.source with
      | hostaway => rfl
      | localFile =>
        rw [hg.bare r hr hsource] at hp
        exact absurd hp.2 (by simp)
    · rw [hi]
      exact Option.some_ne_none i
    · rw [hp.2, hi]
  · obtain ⟨hr, hp⟩ := mem_of_firstRow hurl
    simp only [Bool.and_eq_true, beq_iff_eq] at hp
    exact ⟨hr, hp.1.1, hp.2, .inr ⟨noId_of_firstRow hnoid, hp.1.2⟩⟩
  · -- the key is that of a row with the id or with the URL
    exfalso
    obtain ⟨hr, hp⟩ := mem_of_firstRow hkey
    simp only [Bool.and_eq_true, beq_iff_eq] at hp
    obtain ⟨⟨hp, hkey⟩, hsource⟩ := hp
    rw [hg.keyed r hr hsource] at hkey
    obtain ⟨hid, hsame⟩ := keyOf_inj collisionFree hkey
    cases hi : image.imageId with
    | some i =>
      rw [hi] at hid
      exact noId_of_firstRow hnoid i hi r hr hp hid
    | none =>
      rw [hi] at hid
      have := firstRow_eq_none.1 hnourl r hr
      simp [hp, hsource, hsame hid] at this

theorem findImage_eq_none (h : findImage sha256 rows property image = none) :
    NoId rows property image ∧
      ∀ r ∈ rows, r.property = property → r.source = .hostaway → r.hostawayUrl ≠ image.url := by
  unfold findImage at h
  rw [Option.orElse_eq_orElse, Option.orElse_eq_or, Option.orElse_eq_or, Option.or_eq_none_iff, Option.or_eq_none_iff] at h
  obtain ⟨hnoid, hnourl, -⟩ := h
  refine ⟨noId_of_firstRow hnoid, fun r hr hp hsource hurl => ?_⟩
  have := firstRow_eq_none.1 hnourl r hr
  simp [hp, hsource, hurl] at this

/-! ### One image -/

/-- The values of the image fit their columns. -/
def Storable (image : HostawayListingImage) : Prop :=
  image.caption.length ≤ 500 ∧ (∀ i ∈ image.imageId, i < 2 ^ 63) ∧ image.sortOrder < 2 ^ 31

instance (image : HostawayListingImage) : Decidable (Storable image) := by unfold Storable; infer_instance

/-- No photo of another property has the id of the image. -/
def NotElsewhere (rows : List PropertyImage) (property : ℕ) (image : HostawayListingImage) : Prop :=
  ∀ i ∈ image.imageId, ∀ r ∈ rows, r.property ≠ property → r.hostawayImageId ≠ some i

instance (rows : List PropertyImage) (property : ℕ) (image : HostawayListingImage) :
    Decidable (NotElsewhere rows property image) := by unfold NotElsewhere; infer_instance

/-- `r` is the only photo of the property without an id that has the URL of an image without an id, if there is one. -/
def NoTwin (rows : List PropertyImage) (property : ℕ) (image : HostawayListingImage) (r : PropertyImage) : Prop :=
  image.imageId = none → ∀ r' ∈ rows, r'.property = property → r'.source = .hostaway → r'.hostawayImageId = none →
    r'.hostawayUrl = image.url → r'.pk = r.pk

instance (rows : List PropertyImage) (property : ℕ) (image : HostawayListingImage) (r : PropertyImage) :
    Decidable (NoTwin rows property image r) := by unfold NoTwin; infer_instance

/-- The database takes what the image is written to. -/
def Writable (sha256 : String → String) (property : ℕ) (s : Binding) (image : HostawayListingImage) : Prop :=
  Storable image ∧ NotElsewhere s.gallery.rows property image ∧
    ∀ r ∈ findImage sha256 s.gallery.rows property image, NoTwin s.gallery.rows property image r

/-- The row that the lookups lead to was not bound to an earlier image. -/
def Unbound (sha256 : String → String) (property : ℕ) (s : Binding) (image : HostawayListingImage) : Prop :=
  ∀ r ∈ findImage sha256 s.gallery.rows property image, r.pk ∉ s.activePks

theorem proper_write (hr : r.source = .hostaway) : Proper sha256 (r.write sha256 image) where
  keyed := fun _ => rfl
  bare := fun h => by
    have hsource : r.source = .localFile := h
    rw [hr] at hsource
    cases hsource

theorem proper_createdRow (pk : ℕ) : Proper sha256 (createdRow sha256 pk property image) := ⟨fun _ => rfl, nofun⟩

/-- What is left of the constraints for a row that has this image and cannot clash otherwise. -/
theorem compatible_image {i : Option ℕ} (hid : ∀ j ∈ i, r.hostawayImageId ≠ some j)
    (hrow : row.hostawayImageId = i) (hkey : r.property = row.property → r.source = .hostaway → r.syncKey ≠ row.syncKey)
    (hcover : r.property = row.property → (r.isCover && r.isVisible) = true → (row.isCover && row.isVisible) = false)
    (hhero : r.property = row.property → (r.isCityHero && r.isVisible) = true →
      (row.isCityHero && row.isVisible) = false) : Compatible r row where
  imageId := by
    intro j hj heq
    rw [hrow] at heq
    exact hid j heq hj
  syncKey := fun hp hr _ => hkey hp hr
  cover := hcover
  hero := hhero

/-- A row of the property whose key is that of the image has its id, or none and its URL. -/
theorem Sound.key_eq (hg : Sound sha256 g) (collisionFree : Function.Injective sha256) (hr : r ∈ g.rows)
    (hsource : r.source = .hostaway) (hkey : r.syncKey = image.syncKey sha256) :
    r.hostawayImageId = image.imageId ∧ (image.imageId = none → r.hostawayUrl = image.url) := by
  rw [hg.keyed r hr hsource] at hkey
  obtain ⟨hid, hurl⟩ := keyOf_inj collisionFree hkey
  exact ⟨hid, fun hnone => hurl (hid.trans hnone)⟩

theorem accepts_created (collisionFree : Function.Injective sha256) (hg : Sound sha256 g)
    (hurl : image.url ≠ "" ∧ image.url.length ≤ 2048) (hnone : findImage sha256 g.rows property image = none) :
    accepts g.rows (createdRow sha256 (g.sequence + 1) property image) = .ok () ↔
      Storable image ∧ NotElsewhere g.rows property image := by
  rw [accepts_eq_ok]
  obtain ⟨hnoid, hnourl⟩ := findImage_eq_none hnone
  constructor
  · rintro ⟨⟨-, -, hcaption, hid, hsort, -⟩, hcompatible⟩
    refine ⟨⟨hcaption, hid, hsort⟩, fun i hi r hr _ hsame => ?_⟩
    have hpk : r.pk ≠ g.sequence + 1 := by
      have := hg.pk_le r hr
      omega
    exact (hcompatible r hr hpk).imageId i hsame hi
  · rintro ⟨⟨hcaption, hid, hsort⟩, helse⟩
    refine ⟨⟨.inl hurl.1, hurl.2, hcaption, hid, hsort, hsort⟩, fun r hr _ => ?_⟩
    refine compatible_image (i := image.imageId) ?_ rfl ?_ (fun _ _ => rfl) (fun _ _ => rfl)
    · intro j hj hsame
      by_cases hp : r.property = property
      · exact hnoid j hj r hr hp hsame
      · exact helse j hj r hr hp hsame
    · intro hp hsource hkey
      obtain ⟨hsame, hurl'⟩ := hg.key_eq collisionFree hr hsource hkey
      cases hi : image.imageId with
      | some i => exact hnoid i hi r hr hp (hsame.trans hi)
      | none => exact hnourl r hr hp hsource (hurl' hi)

theorem accepts_write (collisionFree : Function.Injective sha256) (hg : Sound sha256 g)
    (hurl : image.url ≠ "" ∧ image.url.length ≤ 2048) (hfound : findImage sha256 g.rows property image = some r) :
    accepts g.rows (r.write sha256 image) = .ok () ↔
      Storable image ∧ NotElsewhere g.rows property image ∧ NoTwin g.rows property image r := by
  rw [accepts_eq_ok]
  obtain ⟨hr, hp, hsource, hcase⟩ := findImage_spec collisionFree hg hfound
  obtain ⟨-, -, -, -, hsort, -⟩ := hg.fits r hr
  constructor
  · rintro ⟨⟨-, -, hcaption, hid, -, hsort'⟩, hcompatible⟩
    refine ⟨⟨hcaption, hid, hsort'⟩, fun i hi r' hr' hp' hsame => ?_, fun hnone r' hr' hp' hs' hnone' hurl' => ?_⟩
    · have hpk : r'.pk ≠ r.pk := by
        intro hpk
        rw [Table.eq_of_mem_of_key hg.nodup hr' hr hpk] at hp'
        exact hp' hp
      exact (hcompatible r' hr' hpk).imageId i hsame hi
    · by_contra hpk
      have hkey := (hcompatible r' hr' hpk).syncKey (hp'.trans hp.symm) hs' hsource
      rw [hg.keyed r' hr' hs', hnone', hurl'] at hkey
      apply hkey
      show _ = keyOf sha256 image.imageId image.url
      rw [hnone]
  · rintro ⟨⟨hcaption, hid, hsort'⟩, helse, htwin⟩
    refine ⟨⟨.inl hurl.1, hurl.2, hcaption, hid, hsort, hsort'⟩, fun r' hr' hpk => ?_⟩
    have hold := hg.compatible r' hr' r hr hpk
    have hother : ∀ j ∈ image.imageId, r'.property = property → r'.hostawayImageId ≠ some j := by
      intro j hj hp' hsame
      rcases hcase with ⟨-, hidr⟩ | ⟨hnoid, -⟩
      · exact hold.imageId j hsame (hidr.trans hj)
      · exact hnoid j hj r' hr' hp' hsame
    refine compatible_image (i := image.imageId) ?_ rfl ?_ hold.cover hold.hero
    · intro j hj hsame
      by_cases hp' : r'.property = property
      · exact hother j hj hp' hsame
      · exact helse j hj r' hr' hp' hsame
    · intro hp' hs' hkey
      have hp' : r'.property = property := hp'.trans hp
      obtain ⟨hsame, hurl'⟩ := hg.key_eq collisionFree hr' hs' hkey
      cases hi : image.imageId with
      | some i => exact hother i hi hp' (hsame.trans hi)
      | none => exact hpk (htwin hi r' hr' hp' hs' (hsame.trans hi) (hurl' hi))

/-- The variables after a round that raises nothing. -/
def taken (sha256 : String → String) (property : ℕ) (s : Binding) (image : HostawayListingImage) : Binding :=
  match findImage sha256 s.gallery.rows property image with
  | none =>
    ⟨⟨s.gallery.rows ++ [createdRow sha256 (s.gallery.sequence + 1) property image], s.gallery.sequence + 1⟩,
      s.activePks ++ [s.gallery.sequence + 1], s.created + 1, s.updated⟩
  | some r =>
    ⟨{ s.gallery with rows := put s.gallery.rows (r.write sha256 image) }, s.activePks ++ [r.pk], s.created,
      s.updated + 1⟩

theorem bindImage_eq_ok (collisionFree : Function.Injective sha256) (hs : Sound sha256 s.gallery)
    (hurl : image.url ≠ "" ∧ image.url.length ≤ 2048) :
    bindImage sha256 property s image = .ok s' ↔
      Writable sha256 property s image ∧ s' = taken sha256 property s image := by
  unfold bindImage taken Writable
  cases hfound : findImage sha256 s.gallery.rows property image with
  | none =>
    simp only [bind_eq_ok, pure_eq_ok, accepts_created collisionFree hs hurl hfound]
    constructor
    · rintro ⟨_, hok, rfl⟩
      exact ⟨⟨hok.1, hok.2, nofun⟩, rfl⟩
    · rintro ⟨⟨hstorable, helse, -⟩, rfl⟩
      exact ⟨(), ⟨hstorable, helse⟩, rfl⟩
  | some r =>
    simp only [bind_eq_ok, pure_eq_ok, accepts_write collisionFree hs hurl hfound]
    constructor
    · rintro ⟨_, ⟨hstorable, helse, htwin⟩, rfl⟩
      refine ⟨⟨hstorable, helse, fun r' hr' => ?_⟩, rfl⟩
      rw [← Option.some.inj hr']
      exact htwin
    · rintro ⟨⟨hstorable, helse, htwin⟩, rfl⟩
      exact ⟨(), ⟨hstorable, helse, htwin r rfl⟩, rfl⟩

theorem sound_taken (collisionFree : Function.Injective sha256) (hs : Sound sha256 s.gallery)
    (hurl : image.url ≠ "" ∧ image.url.length ≤ 2048) (hw : Writable sha256 property s image) :
    Sound sha256 (taken sha256 property s image).gallery := by
  obtain ⟨hstorable, helse, htwin⟩ := hw
  unfold taken
  cases hfound : findImage sha256 s.gallery.rows property image with
  | none =>
    exact hs.append rfl (proper_createdRow _) ((accepts_created collisionFree hs hurl hfound).2 ⟨hstorable, helse⟩)
  | some r =>
    obtain ⟨hr, -, hsource, -⟩ := findImage_spec collisionFree hs hfound
    have hok := (accepts_write collisionFree hs hurl hfound).2 ⟨hstorable, helse, htwin r hfound⟩
    have hpk : r.pk = (r.write sha256 image).pk := rfl
    exact hs.put hr hpk (proper_write hsource) hok

/-! ### The loop -/

/-- The row with this key is a photo of the property that the image has been written to. -/
def Carries (sha256 : String → String) (property : ℕ) (rows : List PropertyImage) (image : HostawayListingImage)
    (pk : ℕ) : Prop :=
  ∃ r ∈ rows, r.pk = pk ∧ r.property = property ∧ r.source = .hostaway ∧ r.write sha256 image = r

/-- What a sync of the property may do to a row. -/
structure Kept (property : ℕ) (r r' : PropertyImage) : Prop where
  pk : r'.pk = r.pk
  owner : r'.toOwnerFields = r.toOwnerFields
  source : r'.source = r.source
  other : r.source = .localFile ∨ r.property ≠ property → r' = r

/-- A row that a sync of the property may add. -/
structure New (property : ℕ) (r : PropertyImage) : Prop where
  property_eq : r.property = property
  source : r.source = .hostaway
  cover : r.isCover = false
  hero : r.isCityHero = false
  texts : r.texts = Texts.empty

/-- Every row is kept, and what is added is new. -/
structure Keeps (property : ℕ) (rows rows' : List PropertyImage) : Prop where
  kept : ∀ r ∈ rows, ∃ r' ∈ rows', Kept property r r'
  added : ∀ r' ∈ rows', (∃ r ∈ rows, r.pk = r'.pk) ∨ New property r'

/-- After some images, each has a row of its own. -/
structure Bound (sha256 : String → String) (property : ℕ) (g : Gallery) (done : List HostawayListingImage)
    (s : Binding) : Prop where
  sound : Sound sha256 s.gallery
  bound : List.Forall₂ (Carries sha256 property s.gallery.rows) done s.activePks
  nodup : s.activePks.Nodup
  keeps : Keeps property g.rows s.gallery.rows

theorem write_write : (r.write sha256 image).write sha256 image = r.write sha256 image := rfl

theorem write_createdRow (pk : ℕ) :
    (createdRow sha256 pk property image).write sha256 image = createdRow sha256 pk property image := rfl

theorem Kept.refl (property : ℕ) (r : PropertyImage) : Kept property r r := ⟨rfl, rfl, rfl, fun _ => rfl⟩

theorem Keeps.refl (property : ℕ) (rows : List PropertyImage) : Keeps property rows rows :=
  ⟨fun r hr => ⟨r, hr, .refl property r⟩, fun r hr => .inl ⟨r, hr, rfl⟩⟩

theorem bound_start (property : ℕ) (hg : Sound sha256 g) : Bound sha256 property g [] (Binding.start g) :=
  ⟨hg, .nil, List.nodup_nil, .refl property g.rows⟩

variable {done : List HostawayListingImage}

/-- Each of the second elements is one of their list. -/
theorem forall₂_with_mem {α β : Type*} {R : α → β → Prop} {l : List α} {m : List β} (h : List.Forall₂ R l m) :
    List.Forall₂ (fun a b => R a b ∧ b ∈ m) l m := by
  induction h with
  | nil => exact .nil
  | cons hab hlm ih =>
    exact .cons ⟨hab, List.mem_cons_self⟩ (ih.imp fun a b hR => ⟨hR.1, List.mem_cons_of_mem _ hR.2⟩)

theorem exists_of_forall₂ {α β : Type*} {R : α → β → Prop} {l : List α} {m : List β} {b : β} (h : List.Forall₂ R l m)
    (hb : b ∈ m) : ∃ a ∈ l, R a b := by
  induction h with
  | nil => cases hb
  | @cons a b' l m hab hlm ih =>
    rcases List.mem_cons.1 hb with rfl | hb
    · exact ⟨a, List.mem_cons_self, hab⟩
    · obtain ⟨x, hx, hR⟩ := ih hb
      exact ⟨x, List.mem_cons_of_mem _ hx, hR⟩

theorem Bound.taken (collisionFree : Function.Injective sha256) (hb : Bound sha256 property g done s)
    (hurl : image.url ≠ "" ∧ image.url.length ≤ 2048) (hw : Writable sha256 property s image)
    (hu : Unbound sha256 property s image) :
    Bound sha256 property g (done ++ [image]) (taken sha256 property s image) := by
  have hsound := sound_taken collisionFree hb.sound hurl hw
  unfold PhotoGallery.taken at hsound ⊢
  unfold Unbound at hu
  cases hfound : findImage sha256 s.gallery.rows property image with
  | none =>
    rw [hfound] at hsound
    refine ⟨hsound, ?_, ?_, ?_, ?_⟩
    · refine List.rel_append (hb.bound.imp ?_) (.cons ?_ .nil)
      · rintro i pk ⟨r, hr, hrest⟩
        exact ⟨r, List.mem_append_left _ hr, hrest⟩
      · exact ⟨_, List.mem_append_right _ (List.mem_singleton_self _), rfl, rfl, rfl, rfl⟩
    · rw [List.nodup_append]
      refine ⟨hb.nodup, List.nodup_singleton _, ?_⟩
      intro x hx y hy heq
      obtain ⟨i, -, r, hr, hpk, -⟩ := exists_of_forall₂ hb.bound hx
      have hle := hb.sound.pk_le r hr
      have hlast := List.mem_singleton.1 hy
      omega
    · intro r hr
      obtain ⟨r', hr', hkept⟩ := hb.keeps.kept r hr
      exact ⟨r', List.mem_append_left _ hr', hkept⟩
    · intro r' hr'
      rcases List.mem_append.1 hr' with hr' | hr'
      · exact hb.keeps.added r' hr'
      · rw [List.mem_singleton.1 hr']
        exact .inr ⟨rfl, rfl, rfl, rfl, rfl⟩
  | some r =>
    rw [hfound] at hsound
    obtain ⟨hr, hp, hsource, -⟩ := findImage_spec collisionFree hb.sound hfound
    have hunbound := hu r hfound
    refine ⟨hsound, ?_, ?_, ?_, ?_⟩
    · refine List.rel_append ?_ (.cons ?_ .nil)
      · refine (forall₂_with_mem hb.bound).imp ?_
        rintro i pk ⟨⟨r', hr', rfl, hrest⟩, hpk⟩
        have hne : r'.pk ≠ r.pk := fun heq => hunbound (heq ▸ hpk)
        exact ⟨r', mem_put.2 (.inr ⟨hr', hne⟩), rfl, hrest⟩
      · exact ⟨_, mem_put.2 (.inl ⟨rfl, r, hr, rfl⟩), rfl, hp, hsource, rfl⟩
    · rw [List.nodup_append]
      refine ⟨hb.nodup, List.nodup_singleton _, ?_⟩
      intro x hx y hy heq
      rw [List.mem_singleton.1 hy] at heq
      exact hunbound (heq ▸ hx)
    · intro r₀ hr₀
      obtain ⟨r', hr', hkept⟩ := hb.keeps.kept r₀ hr₀
      by_cases hpk : r'.pk = r.pk
      · obtain rfl := Table.eq_of_mem_of_key hb.sound.nodup hr' hr hpk
        refine ⟨_, mem_put.2 (.inl ⟨rfl, r', hr, rfl⟩), hkept.pk, hkept.owner, hkept.source, fun hother => ?_⟩
        have hproperty : r'.property = r₀.property := congrArg OwnerFields.property hkept.owner
        rcases hother with hlocal | hne
        · rw [← hkept.source, hsource] at hlocal
          cases hlocal
        · exact absurd (hproperty.symm.trans hp) hne
      · exact ⟨r', mem_put.2 (.inr ⟨hr', hpk⟩), hkept⟩
    · intro r' hr'
      rcases mem_put.1 hr' with ⟨rfl, -⟩ | ⟨hr', -⟩
      · rcases hb.keeps.added r hr with hold | hnew
        · exact .inl hold
        · exact .inr ⟨hp, hsource, hnew.cover, hnew.hero, hnew.texts⟩
      · exact hb.keeps.added r' hr'

/-- A sync, or a repeated one, as turns of the loop: a turn that raises changes nothing, and a sync that is over is
followed by the next one. -/
inductive Turn
  | image (image : HostawayListingImage)
  | close

def turn (sha256 : String → String) (property : ℕ) (s : Binding) : Turn → Binding
  | .image image =>
    match bindImage sha256 property s image with
    | .ok s' => s'
    | .error _ => s
  | .close => Binding.start (deactivate property s)

/-- When an image is reached, the database takes what it is written to, and that row is bound to no image before it. -/
def Lone (sha256 : String → String) (property : ℕ) (s : Binding) : Turn → Prop
  | .image image => Writable sha256 property s image ∧ Unbound sha256 property s image
  | .close => True

/-- The turns of a sync and of its repetition. -/
def twice (images : List HostawayListingImage) : List Turn :=
  images.map Turn.image ++ Turn.close :: images.map Turn.image

variable {rest : List HostawayListingImage}

/-- A loop in which every image has a row of its own raises nothing and binds them all. -/
theorem bound_of_meets (collisionFree : Function.Injective sha256)
    (hurl : ∀ image ∈ rest, image.url ≠ "" ∧ image.url.length ≤ 2048) (hb : Bound sha256 property g done s)
    (hm : Meets (turn sha256 property) (Lone sha256 property) s (rest.map Turn.image)) :
    rest.foldlM (bindImage sha256 property) s = .ok (run (turn sha256 property) s (rest.map Turn.image)) ∧
      Bound sha256 property g (done ++ rest) (run (turn sha256 property) s (rest.map Turn.image)) := by
  induction rest generalizing done s with
  | nil =>
    rw [List.append_nil]
    exact ⟨rfl, hb⟩
  | cons image rest ih =>
    rw [List.map_cons, meets_cons] at hm
    obtain ⟨⟨hw, hu⟩, hm⟩ := hm
    obtain ⟨himage, hrest⟩ := List.forall_mem_cons.1 hurl
    have hok := (bindImage_eq_ok collisionFree hb.sound himage).2 ⟨hw, rfl⟩
    have hturn : turn sha256 property s (.image image) = taken sha256 property s image := by
      simp only [turn, hok]
    rw [hturn] at hm
    obtain ⟨hfold, hbound⟩ := ih hrest (hb.taken collisionFree himage hw hu) hm
    rw [List.map_cons, run_cons, hturn, List.foldlM_cons, hok]
    rw [List.append_assoc, List.singleton_append] at hbound
    exact ⟨hfold, hbound⟩

/-- The rows that are bound only become more. -/
theorem activePks_bindImage (h : bindImage sha256 property s image = .ok s') :
    ∃ pk, s'.activePks = s.activePks ++ [pk] := by
  unfold bindImage at h
  split at h
  all_goals
    obtain ⟨-, -, h⟩ := bind_eq_ok.1 h
    obtain rfl := Except.ok.inj h
    exact ⟨_, rfl⟩

theorem activePks_foldlM (h : rest.foldlM (bindImage sha256 property) s = .ok s') :
    ∃ pks, s'.activePks = s.activePks ++ pks ∧ pks.length = rest.length := by
  induction rest generalizing s with
  | nil =>
    obtain rfl := Except.ok.inj h
    exact ⟨[], (List.append_nil _).symm, rfl⟩
  | cons image rest ih =>
    rw [List.foldlM_cons] at h
    obtain ⟨t, ht, h⟩ := bind_eq_ok.1 h
    obtain ⟨pk, hpk⟩ := activePks_bindImage ht
    obtain ⟨pks, hpks, hlen⟩ := ih h
    refine ⟨pk :: pks, ?_, congrArg (· + 1) hlen⟩
    rw [hpks, hpk, List.append_assoc, List.singleton_append]

theorem activePks_taken (hfound : findImage sha256 s.gallery.rows property image = some r) :
    (taken sha256 property s image).activePks = s.activePks ++ [r.pk] := by
  simp only [taken, hfound]

/-- A loop that raises nothing and binds no row twice has a row of its own for every image. -/
theorem meets_of_nodup (collisionFree : Function.Injective sha256)
    (hurl : ∀ image ∈ rest, image.url ≠ "" ∧ image.url.length ≤ 2048) (hs : Sound sha256 s.gallery)
    (h : rest.foldlM (bindImage sha256 property) s = .ok s') (hnodup : s'.activePks.Nodup) :
    Meets (turn sha256 property) (Lone sha256 property) s (rest.map Turn.image) := by
  induction rest generalizing s with
  | nil => exact meets_nil
  | cons image rest ih =>
    rw [List.foldlM_cons] at h
    obtain ⟨t, ht, h⟩ := bind_eq_ok.1 h
    obtain ⟨himage, hrest⟩ := List.forall_mem_cons.1 hurl
    have hturn : turn sha256 property s (.image image) = t := by simp only [turn, ht]
    obtain ⟨hw, rfl⟩ := (bindImage_eq_ok collisionFree hs himage).1 ht
    rw [List.map_cons, meets_cons, hturn]
    refine ⟨⟨hw, fun r hr hmem => ?_⟩, ih hrest (sound_taken collisionFree hs himage hw) h⟩
    obtain ⟨pks, hpks, -⟩ := activePks_foldlM h
    rw [hpks, activePks_taken hr, List.append_assoc, List.nodup_append] at hnodup
    exact hnodup.2.2 r.pk hmem r.pk (List.mem_append_left _ (List.mem_singleton_self _)) rfl

theorem sound_foldlM (collisionFree : Function.Injective sha256)
    (hurl : ∀ image ∈ rest, image.url ≠ "" ∧ image.url.length ≤ 2048) (hs : Sound sha256 s.gallery)
    (h : rest.foldlM (bindImage sha256 property) s = .ok s') : Sound sha256 s'.gallery := by
  induction rest generalizing s with
  | nil =>
    obtain rfl := Except.ok.inj h
    exact hs
  | cons image rest ih =>
    rw [List.foldlM_cons] at h
    obtain ⟨t, ht, h⟩ := bind_eq_ok.1 h
    obtain ⟨himage, hrest⟩ := List.forall_mem_cons.1 hurl
    obtain ⟨hw, rfl⟩ := (bindImage_eq_ok collisionFree hs himage).1 ht
    exact ih hrest (sound_taken collisionFree hs himage hw) h

/-! ### The end of a sync -/

theorem eased_settled (property : ℕ) (activePks : List ℕ) (r : PropertyImage) :
    Eased r (settled property activePks r) := by
  unfold settled
  split
  · exact ⟨rfl, rfl, rfl, rfl, rfl, rfl, rfl, rfl, rfl, rfl, id, id⟩
  · exact .refl r

theorem Sound.deactivate (hs : Sound sha256 s.gallery) : Sound sha256 (deactivate property s) :=
  hs.map (eased_settled property s.activePks)

theorem syncImages_eq_ok {g' : Gallery} {counts : ℕ × ℕ × ℕ} :
    syncImages sha256 g property images = .ok (g', counts) ↔
      ∃ s, images.foldlM (bindImage sha256 property) (Binding.start g) = .ok s ∧ g' = deactivate property s ∧
        counts = (s.created, s.updated, s.gallery.rows.countP (stale property s.activePks)) := by
  simp only [syncImages, bind_eq_ok, pure_eq_ok]
  constructor
  · rintro ⟨s, hs, heq⟩
    obtain ⟨rfl, rfl⟩ := Prod.mk.inj heq
    exact ⟨s, hs, rfl, rfl⟩
  · rintro ⟨s, hs, rfl, rfl⟩
    exact ⟨s, hs, rfl⟩

theorem sound_syncImages (collisionFree : Function.Injective sha256) (hacc : Accepted sha256 images)
    (hg : Sound sha256 g) {g' : Gallery} {counts : ℕ × ℕ × ℕ}
    (h : syncImages sha256 g property images = .ok (g', counts)) : Sound sha256 g' := by
  obtain ⟨s, hs, rfl, -⟩ := syncImages_eq_ok.1 h
  exact (sound_foldlM collisionFree hacc.url (s := Binding.start g) hg hs).deactivate

/-! ### The edits of the owner -/

theorem eased_demoteCovers (row : PropertyImage) (hg : Sound sha256 g) :
    Sound sha256 { g with rows := demoteCovers row g.rows } := by
  unfold demoteCovers
  split
  · refine hg.map fun r => ?_
    split
    · exact ⟨rfl, rfl, rfl, rfl, rfl, rfl, rfl, rfl, rfl, rfl, nofun, id⟩
    · exact .refl r
  · exact hg

theorem eased_demoteHeroes (city : ℕ → String) (row : PropertyImage) (hg : Sound sha256 g) :
    Sound sha256 { g with rows := demoteOtherCityHeroes city row g.rows } := by
  unfold demoteOtherCityHeroes
  split
  · refine hg.map fun r => ?_
    split
    · exact ⟨rfl, rfl, rfl, rfl, rfl, rfl, rfl, rfl, rfl, rfl, id, nofun⟩
    · exact .refl r
  · exact hg

theorem map_pk_demoteCovers (row : PropertyImage) (rows : List PropertyImage) :
    (demoteCovers row rows).map (·.pk) = rows.map (·.pk) := by
  unfold demoteCovers
  split
  · rw [List.map_map]
    refine List.map_congr_left fun r _ => ?_
    show (if _ then _ else r : PropertyImage).pk = r.pk
    split <;> rfl
  · rfl

theorem sound_saveModel (city : ℕ → String) (hg : Sound sha256 g) (hrow : Proper sha256 row)
    (hpk : row.pk ∈ g.rows.map (·.pk) ∨ row.pk = g.sequence + 1) : Sound sha256 (saveModel city g row) := by
  unfold saveModel
  split
  · exact hg
  have hdemoted := eased_demoteCovers row hg
  dsimp only
  split
  next => exact hg
  next hok =>
    split
    next hle =>
      refine eased_demoteHeroes (g := ⟨put (demoteCovers row g.rows) row, g.sequence⟩) city row ?_
      have hmem : row.pk ∈ (demoteCovers row g.rows).map (·.pk) := by
        rw [map_pk_demoteCovers]
        rcases hpk with hpk | hpk
        · exact hpk
        · omega
      obtain ⟨r, hr, hr'⟩ := List.mem_map.1 hmem
      exact hdemoted.put hr hr' hrow hok
    next hlt =>
      refine eased_demoteHeroes (g := ⟨demoteCovers row g.rows ++ [row], row.pk⟩) city row ?_
      rcases hpk with hpk | hpk
      · obtain ⟨r, hr, hr'⟩ := List.mem_map.1 hpk
        have := hg.pk_le r hr
        omega
      · exact hdemoted.append hpk hrow hok

theorem sound_step (collisionFree : Function.Injective lib.sha256) (hg : Sound lib.sha256 g) (a : Action) :
    Sound lib.sha256 (step lib g a) := by
  cases a with
  | sync property payloads =>
    simp only [step]
    cases himages : normalizeImages lib payloads with
    | error e => exact hg
    | ok accepted =>
      obtain ⟨images, errors⟩ := accepted
      dsimp only
      cases hsync : syncImages lib.sha256 g property images with
      | error e => exact hg
      | ok result => exact sound_syncImages collisionFree (normalizeImages_accepted himages) hg hsync
  | add city fields => exact sound_saveModel city hg ⟨by rintro ⟨⟩, fun _ => rfl⟩ (.inr rfl)
  | edit city pk fields =>
    simp only [step]
    cases hget : Table.get (·.pk) g.rows pk with
    | none => exact hg
    | some r =>
      have hr := Table.mem_of_get hget
      have hrow : Proper lib.sha256 { r with toOwnerFields := fields } := ⟨hg.keyed r hr, hg.bare r hr⟩
      exact sound_saveModel city hg hrow (.inl (List.mem_map.2 ⟨r, hr, rfl⟩))
  | altTexts property ar en fr =>
    refine hg.map fun r => ?_
    split
    · exact ⟨rfl, rfl, rfl, rfl, rfl, rfl, rfl, rfl, rfl, rfl, id, id⟩
    · exact .refl r
  | remove pk =>
    have hsub : ∀ r ∈ g.rows.filter fun r => !(r.pk == pk && r.source == .localFile), r ∈ g.rows :=
      fun r hr => (List.mem_filter.1 hr).1
    exact ⟨hg.nodup.sublist (List.filter_sublist.map _), fun r hr => hg.pk_le r (hsub r hr),
      fun r hr => hg.fits r (hsub r hr), fun a ha b hb => hg.compatible a (hsub a ha) b (hsub b hb),
      fun r hr => hg.keyed r (hsub r hr), fun r hr => hg.bare r (hsub r hr)⟩

theorem sound_empty (sha256 : String → String) : Sound sha256 Gallery.empty where
  nodup := List.nodup_nil
  pk_le := nofun
  fits := nofun
  compatible := nofun
  keyed := nofun
  bare := nofun

theorem sound_run (collisionFree : Function.Injective lib.sha256) (as : List Action) :
    Sound lib.sha256 (run (step lib) Gallery.empty as) := by
  have hstep : ∀ g a, Sound lib.sha256 g → Sound lib.sha256 (step lib g a) := fun _ a hg => sound_step collisionFree hg a
  exact run_inv hstep (sound_empty lib.sha256) as

/-! ### One row for every image -/

/-- The active photos of the property that come from the channel. -/
def activeRows (property : ℕ) (g : Gallery) : List PropertyImage :=
  g.rows.filter fun r => r.property == property && r.source == .hostaway && r.isActiveAtSource

/-- What a row shows of the channel. -/
def PropertyImage.shown (r : PropertyImage) : Option ℕ × String × String × ℕ :=
  (r.hostawayImageId, r.hostawayUrl, r.hostawayCaption, r.hostawaySortOrder)

def HostawayListingImage.shown (image : HostawayListingImage) : Option ℕ × String × String × ℕ :=
  (image.imageId, image.url, image.caption, image.sortOrder)

/-- What tells a row from the others. -/
def PropertyImage.identity (r : PropertyImage) : ℕ × ℕ × Source × Option ℕ × String × String :=
  (r.pk, r.property, r.source, r.hostawayImageId, r.hostawayUrl, r.syncKey)

/-- The photos of the channel mirror its images, and nothing else has changed. -/
structure Mirrored (property : ℕ) (images : List HostawayListingImage) (g g' : Gallery) : Prop where
  active : ((activeRows property g').map (·.shown)).Perm (images.map (·.shown))
  keeps : Keeps property g.rows g'.rows

/-- The sync mirrors the images, and a second sync leaves all rows what they are. -/
def MirrorsOneToOne (sha256 : String → String) (property : ℕ) (images : List HostawayListingImage) (g : Gallery) :
    Prop :=
  ∃ g' counts, syncImages sha256 g property images = .ok (g', counts) ∧ Mirrored property images g g' ∧
    ∃ g'' counts', syncImages sha256 g' property images = .ok (g'', counts') ∧
      g''.rows.map (·.identity) = g'.rows.map (·.identity)

/-- The rows that are active after the sync are those that are bound. -/
theorem mem_activeRows_deactivate :
    r ∈ activeRows property (deactivate property s) ↔
      r ∈ s.gallery.rows ∧ r.property = property ∧ r.source = .hostaway ∧ r.isActiveAtSource = true ∧
        r.pk ∈ s.activePks := by
  unfold activeRows deactivate
  rw [List.mem_filter, List.mem_map]
  constructor
  · rintro ⟨⟨r₀, hr₀, rfl⟩, hactive⟩
    unfold settled at hactive ⊢
    split at hactive
    next hstale => simp at hactive
    next hstale =>
      rw [if_neg hstale]
      simp only [Bool.and_eq_true, beq_iff_eq] at hactive
      obtain ⟨⟨hp, hsource⟩, hactive⟩ := hactive
      refine ⟨hr₀, hp, hsource, hactive, ?_⟩
      simpa [stale, hp, hsource, hactive] using hstale
  · rintro ⟨hr, hp, hsource, hactive, hpk⟩
    have hstale : stale property s.activePks r = false := by simp [stale, hpk]
    refine ⟨⟨r, hr, ?_⟩, by simp [hp, hsource, hactive]⟩
    unfold settled
    rw [hstale, if_neg Bool.false_ne_true]

theorem nodup_activeRows (hg : Sound sha256 g) : ((activeRows property g).map (·.pk)).Nodup :=
  hg.nodup.sublist (List.filter_sublist.map _)

/-- A sync that leaves as many active rows as there are images bound no row twice. -/
theorem nodup_of_length (hs : Sound sha256 s.gallery)
    (hlen : s.activePks.length ≤ (activeRows property (deactivate property s)).length) : s.activePks.Nodup := by
  have hnodup : ((activeRows property (deactivate property s)).map (·.pk)).Nodup := nodup_activeRows hs.deactivate
  have hsub : (activeRows property (deactivate property s)).map (·.pk) ⊆ s.activePks := by
    intro pk hpk
    obtain ⟨r, hr, rfl⟩ := List.mem_map.1 hpk
    exact (mem_activeRows_deactivate.1 hr).2.2.2.2
  have hperm := (List.subperm_of_subset hnodup hsub).perm_of_length_le (by rwa [List.length_map])
  exact hperm.nodup_iff.1 hnodup

theorem kept_settled (property : ℕ) (pks : List ℕ) (r : PropertyImage) :
    Kept property r (settled property pks r) := by
  unfold settled
  split
  next hstale =>
    simp only [stale, Bool.and_eq_true, beq_iff_eq] at hstale
    obtain ⟨⟨⟨hp, hsource⟩, -⟩, -⟩ := hstale
    refine ⟨rfl, rfl, rfl, fun hother => ?_⟩
    rcases hother with hlocal | hne
    · rw [hsource] at hlocal
      cases hlocal
    · exact absurd hp hne
  next hstale => exact .refl property r

theorem New.settled {pks : List ℕ} (h : New property r) : New property (settled property pks r) := by
  unfold PhotoGallery.settled
  split
  · exact ⟨h.property_eq, h.source, h.cover, h.hero, h.texts⟩
  · exact h

theorem keeps_settled {pks : List ℕ} {rows' : List PropertyImage} (h : Keeps property rows rows') :
    Keeps property rows (rows'.map (settled property pks)) := by
  constructor
  · intro r hr
    obtain ⟨r', hr', hkept⟩ := h.kept r hr
    obtain ⟨hpk, howner, hsource, hother⟩ := kept_settled property pks r'
    refine ⟨_, List.mem_map_of_mem hr', hpk.trans hkept.pk, howner.trans hkept.owner, hsource.trans hkept.source, ?_⟩
    intro hold
    obtain rfl := hkept.other hold
    exact hother hold
  · intro r' hr'
    obtain ⟨r₁, hr₁, rfl⟩ := List.mem_map.1 hr'
    rw [(kept_settled property pks r₁).pk]
    rcases h.added r₁ hr₁ with hold | hadded
    · exact .inl hold
    · exact .inr hadded.settled

/-- What the row with this key shows. -/
def shownAt (rows : List PropertyImage) (pk : ℕ) : Option ℕ × String × String × ℕ :=
  ((Table.get (·.pk) rows pk).map (·.shown)).getD (none, "", "", 0)

theorem shownAt_eq (hnodup : (rows.map (·.pk)).Nodup) (hr : r ∈ rows) : shownAt rows r.pk = r.shown := by
  have hget : Table.get (·.pk) rows r.pk = some r := Table.get_eq_of_mem hnodup hr
  unfold shownAt
  rw [hget]
  rfl

theorem map_shown_eq {pks : List ℕ} (hnodup : (rows.map (·.pk)).Nodup)
    (h : List.Forall₂ (Carries sha256 property rows) images pks) :
    images.map (·.shown) = pks.map (shownAt rows) := by
  induction h with
  | nil => rfl
  | cons hcarries _ ih =>
    obtain ⟨r, hr, rfl, -, -, hwrite⟩ := hcarries
    rw [List.map_cons, List.map_cons, ih, shownAt_eq hnodup hr, ← hwrite]
    rfl

/-- When every image has a row of its own, the active rows show the images. -/
theorem Bound.mirrored (hb : Bound sha256 property g images s) :
    Mirrored property images g (deactivate property s) := by
  refine ⟨?_, keeps_settled hb.keeps⟩
  have hactive : (activeRows property (deactivate property s)).map (·.shown) =
      ((activeRows property (deactivate property s)).map (·.pk)).map (shownAt s.gallery.rows) := by
    rw [List.map_map]
    refine List.map_congr_left fun r hr => (shownAt_eq hb.sound.nodup ?_).symm
    exact (mem_activeRows_deactivate.1 hr).1
  have himages := map_shown_eq hb.sound.nodup hb.bound
  rw [hactive, himages]
  refine List.Perm.map _ ((List.perm_ext_iff_of_nodup (nodup_activeRows hb.sound.deactivate) hb.nodup).2 fun pk => ?_)
  constructor
  · intro hpk
    obtain ⟨r, hr, rfl⟩ := List.mem_map.1 hpk
    exact (mem_activeRows_deactivate.1 hr).2.2.2.2
  · intro hpk
    obtain ⟨image, -, r, hr, rfl, hp, hsource, hwrite⟩ := exists_of_forall₂ hb.bound hpk
    have hactive : r.isActiveAtSource = true := by rw [← hwrite]; rfl
    exact List.mem_map_of_mem (mem_activeRows_deactivate.2 ⟨hr, hp, hsource, hactive, hpk⟩)

/-! ### The sync again -/

/-- An image that has its row is led to it, unless another photo without an id has its URL. -/
theorem find_of_carries (collisionFree : Function.Injective sha256) (hg : Sound sha256 g) (hr : r ∈ g.rows)
    (hp : r.property = property) (hsource : r.source = .hostaway) (hwrite : r.write sha256 image = r)
    (htwin : ∀ r' ∈ findImage sha256 g.rows property image, NoTwin g.rows property image r') :
    findImage sha256 g.rows property image = some r := by
  have hid : r.hostawayImageId = image.imageId := by rw [← hwrite]; rfl
  have hurl : r.hostawayUrl = image.url := by rw [← hwrite]; rfl
  cases hfound : findImage sha256 g.rows property image with
  | none => exact absurd hurl ((findImage_eq_none hfound).2 r hr hp hsource)
  | some r' =>
    obtain ⟨hr', -, -, hcase⟩ := findImage_spec collisionFree hg hfound
    have hpk : r'.pk = r.pk := by
      cases hi : image.imageId with
      | some i =>
        rw [hi] at hid hcase
        rcases hcase with ⟨-, hid'⟩ | ⟨hnoid, -⟩
        · by_contra hne
          exact (hg.compatible r' hr' r hr hne).imageId i hid' hid
        · exact absurd hid (hnoid i hi r hr hp)
      | none => exact (htwin r' hfound hi r hr hp hsource (hid.trans hi) hurl).symm
    rw [Table.eq_of_mem_of_key hg.nodup hr' hr hpk]

theorem put_same (hnodup : (rows.map (·.pk)).Nodup) (hr : r ∈ rows) : put rows r = rows := by
  have hsame : ∀ a ∈ rows, (if a.pk = r.pk then r else a) = a := by
    intro a ha
    split
    next heq => exact (Table.eq_of_mem_of_key hnodup ha hr heq).symm
    next => rfl
  exact (List.map_congr_left hsame).trans (List.map_id _)

/-- Of a gallery whose rows carry the images, a loop that raises nothing leaves every row what it is, and each image has
its row. -/
theorem meets_again (collisionFree : Function.Injective sha256) (hg : Sound sha256 g) {pks : List ℕ}
    (hurl : ∀ image ∈ rest, image.url ≠ "" ∧ image.url.length ≤ 2048)
    (hcarries : List.Forall₂ (Carries sha256 property g.rows) rest pks) (hs : s.gallery = g)
    (hnodup : (s.activePks ++ pks).Nodup) (h : rest.foldlM (bindImage sha256 property) s = .ok s') :
    s'.gallery = g ∧ Meets (turn sha256 property) (Lone sha256 property) s (rest.map Turn.image) := by
  induction hcarries generalizing s with
  | nil =>
    obtain rfl := Except.ok.inj h
    exact ⟨hs, meets_nil⟩
  | @cons image pk rest pks hhead _ ih =>
    rw [List.foldlM_cons] at h
    obtain ⟨t, ht, h⟩ := bind_eq_ok.1 h
    obtain ⟨himage, hrest⟩ := List.forall_mem_cons.1 hurl
    have hturn : turn sha256 property s (.image image) = t := by simp only [turn, ht]
    have hsound : Sound sha256 s.gallery := by rwa [hs]
    obtain ⟨hw, rfl⟩ := (bindImage_eq_ok collisionFree hsound himage).1 ht
    obtain ⟨r, hr, rfl, hp, hsource, hwrite⟩ := hhead
    rw [← hs] at hr
    have hfound := find_of_carries collisionFree hsound hr hp hsource hwrite hw.2.2
    have htaken : taken sha256 property s image = ⟨s.gallery, s.activePks ++ [r.pk], s.created, s.updated + 1⟩ := by
      simp only [taken, hfound, hwrite, put_same hsound.nodup hr]
    rw [List.append_cons] at hnodup
    rw [List.map_cons, meets_cons, hturn, htaken]
    rw [htaken] at h
    have hkept : (⟨s.gallery, s.activePks ++ [r.pk], s.created, s.updated + 1⟩ : Binding).gallery = g := hs
    obtain ⟨hgallery, hmeets⟩ := ih hrest hkept hnodup h
    refine ⟨hgallery, ⟨hw, fun r' hr' hmem => ?_⟩, hmeets⟩
    obtain rfl : r = r' := Option.some.inj (hfound.symm.trans hr')
    rw [List.append_assoc, List.nodup_append] at hnodup
    exact hnodup.2.2 r.pk hmem r.pk (List.mem_append_left _ (List.mem_singleton_self _)) rfl

theorem carries_deactivate {pks : List ℕ} (h : List.Forall₂ (Carries sha256 property s.gallery.rows) images pks)
    (hpks : ∀ pk ∈ pks, pk ∈ s.activePks) :
    List.Forall₂ (Carries sha256 property (deactivate property s).rows) images pks := by
  refine (forall₂_with_mem h).imp ?_
  rintro image pk ⟨⟨r, hr, rfl, hp, hsource, hwrite⟩, hpk⟩
  have hactive : r.isActiveAtSource = true := by rw [← hwrite]; rfl
  have hmem : r ∈ activeRows property (deactivate property s) :=
    mem_activeRows_deactivate.2 ⟨hr, hp, hsource, hactive, hpks r.pk hpk⟩
  exact ⟨r, (List.mem_filter.1 hmem).1, rfl, hp, hsource, hwrite⟩

theorem identity_settled (pks : List ℕ) (r : PropertyImage) : (settled property pks r).identity = r.identity := by
  unfold settled
  split <;> rfl

/-- For a sound gallery and accepted images, one sync mirrors the images and the next one changes no identity exactly
when in both every image has a row of its own. -/
theorem mirrorsOneToOne_iff (collisionFree : Function.Injective sha256) (hg : Sound sha256 g)
    (hacc : Accepted sha256 images) :
    MirrorsOneToOne sha256 property images g ↔
      Meets (turn sha256 property) (Lone sha256 property) (Binding.start g) (twice images) := by
  have hstart := bound_start property hg
  unfold MirrorsOneToOne twice
  rw [meets_append, meets_cons]
  constructor
  · rintro ⟨g', counts, hsync, hmirrored, g'', counts', hagain, -⟩
    obtain ⟨s, hs, rfl, -⟩ := syncImages_eq_ok.1 hsync
    have hsound : Sound sha256 s.gallery := sound_foldlM collisionFree hacc.url hstart.sound hs
    have hnodup : s.activePks.Nodup := by
      obtain ⟨pks, hpks, hlen⟩ := activePks_foldlM hs
      have hactive := hmirrored.active.length_eq
      rw [List.length_map, List.length_map] at hactive
      have hle : s.activePks.length ≤ (activeRows property (deactivate property s)).length := by
        rw [hactive, hpks, ← hlen]
        exact le_rfl
      exact nodup_of_length hsound hle
    have hfirst := meets_of_nodup collisionFree hacc.url hstart.sound hs hnodup
    obtain ⟨hrun, hbound⟩ := bound_of_meets collisionFree hacc.url hstart hfirst
    obtain rfl := Except.ok.inj (hs.symm.trans hrun)
    refine ⟨hfirst, trivial, ?_⟩
    obtain ⟨s', hs', -⟩ := syncImages_eq_ok.1 hagain
    exact (meets_again collisionFree hbound.sound.deactivate hacc.url (carries_deactivate hbound.bound fun _ hpk => hpk)
      (s := Binding.start _) rfl hbound.nodup hs').2
  · rintro ⟨hfirst, -, hsecond⟩
    obtain ⟨hrun, hbound⟩ := bound_of_meets collisionFree hacc.url hstart hfirst
    have hsound : Sound sha256 (deactivate property _) := hbound.sound.deactivate
    obtain ⟨hrun', -⟩ := bound_of_meets collisionFree hacc.url (bound_start property hsound) hsecond
    have hsame := (meets_again collisionFree hsound hacc.url (carries_deactivate hbound.bound fun _ hpk => hpk)
      (s := Binding.start _) rfl hbound.nodup hrun').1
    refine ⟨_, _, syncImages_eq_ok.2 ⟨_, hrun, rfl, rfl⟩, hbound.mirrored, _, _,
      syncImages_eq_ok.2 ⟨_, hrun', rfl, rfl⟩, ?_⟩
    show (List.map _ _).map _ = _
    rw [List.map_map, hsame]
    exact List.map_congr_left fun r _ => identity_settled _ r

instance (sha256 : String → String) (property : ℕ) (s : Binding) (t : Turn) : Decidable (Lone sha256 property s t) :=
  match t with
  | .image image => by unfold Lone Writable Unbound; infer_instance
  | .close => .isTrue trivial

/-- In every gallery that syncs and edits of the owner lead to, the images that the validator accepts are mirrored one to
one, by this sync and the next one, exactly when each of them has a row of its own when it is reached. -/
theorem gallery_mirrors_iff (lib : Library) (collisionFree : Function.Injective lib.sha256) (as : List Action)
    (property : ℕ) (payloads : List (Option ImagePayload)) (images : List HostawayListingImage) (errors : List String)
    (haccepted : normalizeImages lib payloads = .ok (images, errors)) :
    MirrorsOneToOne lib.sha256 property images (run (step lib) Gallery.empty as) ↔
      Meets (turn lib.sha256 property) (Lone lib.sha256 property)
        (Binding.start (run (step lib) Gallery.empty as)) (twice images) :=
  mirrorsOneToOne_iff collisionFree (sound_run collisionFree as) (normalizeImages_accepted haccepted)

def sampleKey : String := "d653cda073488e3798847f158f7d53e8da267fe3240bbcc2b62683d661447a21"

def sampleHash (url : String) : String :=
  if url = "https://photos.example/3.jpg" then sampleKey else String.ofList ('#' :: url.toList)

def sampleParse (url : String) : ParsedUrl :=
  match url.toList with
  | 'h' :: 't' :: 't' :: 'p' :: 's' :: ':' :: '/' :: '/' :: rest =>
    ⟨"https", String.ofList (rest.takeWhile fun c => c != '/'), "", ""⟩
  | _ => ⟨"", "", "", ""⟩

def sampleLibrary : Library where
  urlparse := fun url => some (sampleParse url)
  sha256 := sampleHash
  urlparse_empty := by
    rintro u hu
    rw [← Option.some.inj hu]
    rfl

theorem sampleHash_injective : Function.Injective sampleHash := by
  have hother (url : String) : String.ofList ('#' :: url.toList) ≠ sampleKey := by
    intro h
    have hlist := congrArg String.toList h
    rw [String.toList_ofList] at hlist
    exact absurd (List.cons.inj hlist).1 (by decide)
  intro u v huv
  unfold sampleHash at huv
  split_ifs at huv with hu hv hv
  · rw [hu, hv]
  · exact absurd huv.symm (hother v)
  · exact absurd huv (hother u)
  · have hlist := congrArg String.toList huv
    rw [String.toList_ofList, String.toList_ofList] at hlist
    exact String.toList_injective (List.cons.inj hlist).2

def samplePayload (id : Option ℤ) (n : ℤ) (photo : String) : Option ImagePayload :=
  some ⟨id.map some, "https://photos.example/" ++ photo, "", some (some n), .ok none⟩

def sampleImage (id : Option ℕ) (n : ℕ) (photo : String) : HostawayListingImage :=
  ⟨id, "https://photos.example/" ++ photo, "", n, none⟩

/-- Two photos with ids, one without, and one of the owner. -/
def sampleActions : List Action :=
  [.sync 1 [samplePayload (some 1) 0 "1.jpg", samplePayload (some 2) 1 "2.jpg", samplePayload none 2 "3.jpg"],
   .add (fun _ => "Riyadh") ⟨1, "terrace.jpg", Texts.empty, 5, true, true, true⟩,
   .altTexts 1 (fun _ => none) (fun pk => if pk = 1 then some " Balcony " else none) (fun _ => none)]

/-- The two photos with ids exchange their URLs, and the third gets an id. -/
theorem gallery_mirrors_exchanged :
    MirrorsOneToOne sampleHash 1 [sampleImage (some 1) 0 "2.jpg", sampleImage (some 2) 1 "1.jpg",
      sampleImage (some 9) 2 "3.jpg"] (run (step sampleLibrary) Gallery.empty sampleActions) :=
  (gallery_mirrors_iff sampleLibrary sampleHash_injective sampleActions 1
    [samplePayload (some 1) 0 "2.jpg", samplePayload (some 2) 1 "1.jpg", samplePayload (some 9) 2 "3.jpg"] _ []
    (by decide +kernel)).2 (by decide +kernel)

/-- Of two images with one URL the second takes the row of the first. Another image without an id is refused by the
database: a photo with an id has been given its URL, and is found before the old row without an id. -/
theorem shared_url_not_mirrored :
    normalizeImages sampleLibrary [samplePayload (some 1) 0 "1.jpg", samplePayload (some 2) 1 "1.jpg"] =
        .ok ([sampleImage (some 1) 0 "1.jpg", sampleImage (some 2) 1 "1.jpg"], []) ∧
      ¬ MirrorsOneToOne sampleHash 1 [sampleImage (some 1) 0 "1.jpg", sampleImage (some 2) 1 "1.jpg"]
        (run (step sampleLibrary) Gallery.empty []) ∧
      syncImages sampleHash
          (run (step sampleLibrary) Gallery.empty
            [.sync 1 [samplePayload (some 1) 0 "1.jpg", samplePayload none 1 "3.jpg"],
             .sync 1 [samplePayload (some 1) 0 "3.jpg"]])
          1 [sampleImage none 0 "3.jpg"] = .error .integrity := by
  have haccepted : normalizeImages sampleLibrary [samplePayload (some 1) 0 "1.jpg", samplePayload (some 2) 1 "1.jpg"] =
      .ok ([sampleImage (some 1) 0 "1.jpg", sampleImage (some 2) 1 "1.jpg"], []) := by decide +kernel
  refine ⟨haccepted, ?_, by decide +kernel⟩
  rw [run_nil, mirrorsOneToOne_iff sampleHash_injective (sound_empty sampleHash)
    (@normalizeImages_accepted sampleLibrary _ _ _ haccepted)]
  decide +kernel

end Apartments.PhotoGallery
