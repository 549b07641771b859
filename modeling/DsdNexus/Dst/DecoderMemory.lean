import DsdNexus.Dst.Decoder
import DsdNexus.Lib.Transition

/-! # What a decoder keeps of earlier frames

The tables of a frame are read over those of the frames before. Where a table is read to
its end every entry that is used has been written; where reading stops early, the rest is
what was there.
-/

namespace DsdNexus.Dst

open Util

/-! ## Rows -/

/-- Two rows read from one place of the stream over different rows. -/
structure RowResult.Agree (length : Nat) (r r' : RowResult) : Prop where
  ok : r.ok = r'.ok
  gb : r.gb = r'.gb
  row : r.ok = true → ∀ j < length, r.row j = r'.row j

theorem RowResult.Agree.mono {n m : Nat} {r r' : RowResult} (h : r.Agree n r') (hm : m ≤ n) :
    r.Agree m r' :=
  ⟨h.ok, h.gb, fun hok j hj => h.row hok j (by omega)⟩

section Rows

variable (kind : TableKind) (gb : GetBitContext) {row row' : Nat → Int}

theorem readUncodedCoeff_gb (row row' : Nat → Int) (n : Nat) :
    (readUncodedCoeff kind gb row n).1 = (readUncodedCoeff kind gb row' n).1 := by
  induction n with
  | zero => rfl
  | succ n ih =>
    unfold readUncodedCoeff
    simp only [ih]

theorem readUncodedCoeff_row (row row' : Nat → Int) {n j : Nat} (hj : j < n) :
    (readUncodedCoeff kind gb row n).2 j = (readUncodedCoeff kind gb row' n).2 j := by
  induction n with
  | zero => exact absurd hj (Nat.not_lt_zero j)
  | succ n ih =>
    unfold readUncodedCoeff
    simp only [readUncodedCoeff_gb kind gb row row' n, Function.update_apply]
    split
    · rfl
    · next hne => exact ih (by omega)

theorem predictCoeff_congr {method j : Nat} (hj : method + 1 ≤ j)
    (hrow : ∀ i < j, row i = row' i) :
    predictCoeff kind method row j = predictCoeff kind method row' j := by
  have hmap : ((List.range (method + 1)).map fun k => kind.pred method k * row (j - k - 1)) =
      (List.range (method + 1)).map fun k => kind.pred method k * row' (j - k - 1) := by
    apply List.map_congr_left
    intro k hk
    rw [hrow (j - k - 1) (by omega)]
  unfold predictCoeff
  rw [hmap]

theorem readCodedCoeff_agree {method lsbSize n j : Nat} (hj : method + 1 ≤ j)
    (hrow : ∀ i < j, row i = row' i) :
    (readCodedCoeff kind method lsbSize n j gb row).Agree (j + n)
      (readCodedCoeff kind method lsbSize n j gb row') := by
  induction n generalizing j gb row row' with
  | zero => exact ⟨rfl, rfl, fun _ => hrow⟩
  | succ n ih =>
    unfold readCodedCoeff
    simp only [predictCoeff_congr kind hj hrow]
    split
    · exact ⟨rfl, rfl, nofun⟩
    · rw [show j + (n + 1) = j + 1 + n by omega]
      refine ih _ (by omega) fun i hi => ?_
      simp only [Function.update_apply]
      split
      · rfl
      · next hne => exact hrow i (by omega)

theorem readRow_agree (row row' : Nat → Int) (length : Nat) :
    (readRow kind gb row length).Agree length (readRow kind gb row' length) := by
  unfold readRow
  simp only
  split
  · exact ⟨rfl, readUncodedCoeff_gb kind _ row row' length,
      fun _ _ hj => readUncodedCoeff_row kind _ row row' hj⟩
  split
  · exact ⟨rfl, rfl, nofun⟩
  · simp only [readUncodedCoeff_gb kind _ row row']
    refine (readCodedCoeff_agree kind _ (Nat.le_refl _) fun i hi => ?_).mono (by omega)
    exact readUncodedCoeff_row kind _ row row' hi

end Rows

/-! ## Tables -/

/-- Two tables with the same entries in their first `n` rows. -/
structure DstTable.Agree (n : Nat) (t t' : DstTable) : Prop where
  length : ∀ i < n, t.length i = t'.length i
  length_pos : ∀ i < n, 0 < t'.length i
  coeff : ∀ i < n, ∀ j < t'.length i, t.coeff i j = t'.coeff i j

/-- Two tables read from one place of the stream. -/
structure TableResult.Agree (n : Nat) (r r' : TableResult) : Prop where
  ok : r.ok = r'.ok
  gb : r.gb = r'.gb
  elements : r.table.elements = r'.table.elements
  table : r.ok = true → r.table.Agree n r'.table

theorem readTableLoop_agree (kind : TableKind) {n i : Nat} (gb : GetBitContext) {t t' : DstTable}
    (helements : t.elements = t'.elements) (ht : t.Agree i t') :
    (readTableLoop kind n i gb t).Agree (i + n) (readTableLoop kind n i gb t') := by
  induction n generalizing i gb t t' with
  | zero => exact ⟨rfl, rfl, helements, fun _ => ht⟩
  | succ n ih =>
    have hrow := readRow_agree kind (gb.getBits kind.lengthBits).2 (t.coeff i) (t'.coeff i)
      ((gb.getBits kind.lengthBits).1 + 1)
    unfold readTableLoop
    simp only [hrow.ok, hrow.gb]
    split
    · next hok =>
      rw [show i + (n + 1) = i + 1 + n by omega]
      refine ih _ helements ?_
      constructor
      case length =>
        intro i' hi'
        simp only [Function.update_apply]
        split
        · rfl
        · exact ht.length i' (by omega)
      case length_pos =>
        intro i' hi'
        simp only [Function.update_apply]
        split
        · omega
        · exact ht.length_pos i' (by omega)
      case coeff =>
        intro i' hi' j hj
        simp only [Function.update_apply] at hj ⊢
        split
        · next heq =>
          rw [if_pos heq] at hj
          exact hrow.row (hrow.ok.trans hok) j hj
        · next hne =>
          rw [if_neg hne] at hj
          exact ht.coeff i' (by omega) j hj
    · exact ⟨rfl, rfl, helements, nofun⟩

theorem readTableLoop_elements (kind : TableKind) (n i : Nat) (gb : GetBitContext) (t : DstTable) :
    (readTableLoop kind n i gb t).table.elements = t.elements := by
  induction n generalizing i gb t with
  | zero => rfl
  | succ n ih =>
    unfold readTableLoop
    simp only
    split
    · exact ih _ _ _
    · rfl

/-- Reading a table depends on what it held only where it stops early. -/
theorem readTable_agree (kind : TableKind) (gb : GetBitContext) (t t' : DstTable)
    (helements : t.elements = t'.elements) :
    (readTable kind gb t).Agree t'.elements (readTable kind gb t') := by
  unfold readTable
  rw [helements]
  have hagree := readTableLoop_agree kind (n := t'.elements) (i := 0) gb helements
    ⟨nofun, nofun, nofun⟩
  rw [Nat.zero_add] at hagree
  exact hagree

/-! ## Maps -/

theorem readMapLoop_lt {gb : GetBitContext} {elements : Nat} {map : Nat → Nat} {n ch : Nat}
    {r : MapResult} (hmap : ∀ c, map c < elements) (hr : readMapLoop gb elements map n ch = r)
    (hok : r.ok = true) (c : Nat) : r.map c < r.elements := by
  induction n generalizing gb elements map ch with
  | zero =>
    cases hr
    exact hmap c
  | succ n ih =>
    unfold readMapLoop at hr
    simp only at hr
    split at hr
    · next hnew =>
      split at hr
      · cases hr
        cases hok
      · refine ih (fun c' => ?_) hr
        rw [Function.update_apply]
        split
        · omega
        · have hlt := hmap c'
          omega
    · next hold =>
      split at hr
      · cases hr
        cases hok
      · refine ih (fun c' => ?_) hr
        rw [Function.update_apply]
        split
        · omega
        · exact hmap c'

/-- A valid map leads each channel to an element. -/
theorem readMap_lt {gb : GetBitContext} {channels : Nat} (hok : (readMap gb channels).ok = true)
    (ch : Nat) : (readMap gb channels).map ch < (readMap gb channels).elements := by
  generalize hr : readMap gb channels = r at hok ⊢
  unfold readMap at hr
  simp only at hr
  split at hr
  · exact readMapLoop_lt (fun _ => Nat.one_pos) hr hok ch
  · cases hr
    exact Nat.one_pos

theorem readHead_mapped {channels : Nat} {frame : DstFrame} {felem pelem : MapResult}
    (h : readHead channels frame = .mapped felem pelem) (ch : Nat) :
    felem.map ch < felem.elements ∧ pelem.map ch < pelem.elements := by
  unfold readHead at h
  split at h
  · cases h
  split at h
  · cases h
  simp only at h
  split at h
  · split at h
    · cases h
    · cases h
  unfold readSegments at h
  simp only at h
  split at h
  · cases h
  split at h
  · cases h
  · next hfelem =>
    rw [Bool.not_eq_false] at hfelem
    split at h
    · cases h
      exact ⟨readMap_lt hfelem ch, readMap_lt hfelem ch⟩
    · split at h
      · cases h
      · next hpelem =>
        rw [Bool.not_eq_false] at hpelem
        cases h
        exact ⟨readMap_lt hfelem ch, readMap_lt hpelem ch⟩

/-! ## Filters -/

theorem filterValue_congr {n : Nat} {t t' : DstTable} (h : t.Agree n t') {i : Nat} (hi : i < n)
    (j k : Nat) : filterValue t i j k = filterValue t' i j k := by
  unfold filterValue
  rw [h.length i hi]
  congr 1
  apply List.map_congr_left
  intro l hl
  have hlt := List.mem_range.1 hl
  rw [h.coeff i hi (j * 8 + l) (by omega)]

/-- Building a filter succeeds where every entry fits. -/
theorem buildFilter_ok_iff (fsets : DstTable) (entries : List (Nat × Nat × Nat))
    (table : Nat → Nat → Nat → Int) :
    (buildFilter fsets entries table).1 = true ↔ ∀ e ∈ entries,
      toInt16 (filterValue fsets e.1 e.2.1 e.2.2) = filterValue fsets e.1 e.2.1 e.2.2 := by
  induction entries generalizing table with
  | nil => simp [buildFilter]
  | cons e entries ih =>
    unfold buildFilter
    simp only
    split
    · next hne =>
      simp only [Bool.false_eq_true, false_iff]
      exact fun hall => hne (hall e List.mem_cons_self)
    · next hfits =>
      rw [ih, List.forall_mem_cons]
      exact ⟨fun hall => ⟨not_not.1 hfits, hall⟩, fun hall => hall.2⟩

/-- A filter built to its end has its own values. -/
theorem buildFilter_apply {fsets : DstTable} {entries : List (Nat × Nat × Nat)}
    {table : Nat → Nat → Nat → Int} (hok : (buildFilter fsets entries table).1 = true)
    {i j k : Nat} (hmem : (i, j, k) ∈ entries ∨ table i j k = filterValue fsets i j k) :
    (buildFilter fsets entries table).2 i j k = filterValue fsets i j k := by
  induction entries generalizing table with
  | nil =>
    rcases hmem with hmem | heq
    · cases hmem
    · exact heq
  | cons e entries ih =>
    unfold buildFilter at hok ⊢
    simp only at hok ⊢
    split at hok
    · cases hok
    · next hfits =>
      rw [if_neg hfits]
      refine ih hok ?_
      by_cases heq : i = e.1 ∧ j = e.2.1 ∧ k = e.2.2
      · right
        rw [if_pos heq, heq.1, heq.2.1, heq.2.2]
      · rw [if_neg heq]
        rcases hmem with hmem | hold
        · left
          rcases List.mem_cons.1 hmem with hhead | htail
          · exact absurd (by rw [← hhead]; exact ⟨rfl, rfl, rfl⟩) heq
          · exact htail
        · exact Or.inr hold

theorem mem_filterEntries {elements i j k : Nat} :
    (i, j, k) ∈ filterEntries elements ↔ i < elements ∧ j < 16 ∧ k < 256 := by
  simp only [filterEntries, List.mem_flatMap, List.mem_map, List.mem_range, Prod.mk.injEq]
  constructor
  · rintro ⟨i', hi', j', hj', k', hk', rfl, rfl, rfl⟩
    exact ⟨hi', hj', hk'⟩
  · rintro ⟨hi, hj, hk⟩
    exact ⟨i, hi, j, hj, k, hk, rfl, rfl, rfl⟩

/-! ## Samples -/

theorem Status.byte_lt (s : Status) (x : Nat) : s.byte x < 256 := by
  unfold Status.byte
  split
  · exact Nat.mod_lt _ (by omega)
  · exact Nat.mod_lt _ (by omega)

theorem predict_congr {filter filter' : Nat → Nat → Int}
    (h : ∀ j < 16, ∀ k < 256, filter j k = filter' j k) (s : Status) :
    predict filter s = predict filter' s := by
  have hmap : ((List.range 16).map fun x => filter x (s.byte x)) =
      (List.range 16).map fun x => filter' x (s.byte x) := by
    apply List.map_congr_left
    intro x hx
    exact h x (List.mem_range.1 hx) _ (s.byte_lt x)
  unfold predict
  rw [hmap]

/-- Two sets of tables that agree in the rows the channels are led to. -/
structure Tables.Agree (felems pelems : Nat) (t t' : Tables) : Prop where
  fsets : t.fsets.Agree felems t'.fsets
  probs : t.probs.Agree pelems t'.probs
  filter : ∀ i < felems, ∀ j < 16, ∀ k < 256, t.filter i j k = t'.filter i j k
  mapFelem : t.mapFelem = t'.mapFelem
  mapPelem : t.mapPelem = t'.mapPelem
  halfProb : t.halfProb = t'.halfProb
  felem_lt : ∀ ch, t'.mapFelem ch < felems
  pelem_lt : ∀ ch, t'.mapPelem ch < pelems

section Samples

variable {felems pelems : Nat} {t t' : Tables}

theorem Tables.Agree.probOf (h : t.Agree felems pelems t') (ch i : Nat) (p : Int) :
    probOf t ch i p = Dst.probOf t' ch i p := by
  have hf := h.fsets.length (t'.mapFelem ch) (h.felem_lt ch)
  have hp := h.probs.length (t'.mapPelem ch) (h.pelem_lt ch)
  have hpos := h.probs.length_pos (t'.mapPelem ch) (h.pelem_lt ch)
  unfold Dst.probOf
  simp only [h.mapFelem, h.mapPelem, h.halfProb, hf, hp]
  split
  · exact h.probs.coeff _ (h.pelem_lt ch) _ (by split <;> omega)
  · rfl

theorem Tables.Agree.decodeSample (h : t.Agree felems pelems t') (channels i : Nat)
    (s : SampleState) (ch : Nat) :
    decodeSample t channels i s ch = Dst.decodeSample t' channels i s ch := by
  have hpredict : predict (t.filter (t'.mapFelem ch)) (s.status ch) =
      predict (t'.filter (t'.mapFelem ch)) (s.status ch) :=
    predict_congr (h.filter _ (h.felem_lt ch)) _
  unfold Dst.decodeSample
  simp only [h.mapFelem, hpredict, h.probOf]

theorem Tables.Agree.decodeSamples (h : t.Agree felems pelems t') (channels samples : Nat)
    (s : SampleState) :
    decodeSamples t channels samples s = Dst.decodeSamples t' channels samples s := by
  unfold Dst.decodeSamples
  refine List.foldl_ext _ _ _ fun s i _ => ?_
  exact List.foldl_ext _ _ _ fun s ch _ => h.decodeSample channels i s ch

theorem decodeSamples_of_none {channels samples : Nat} (h : channels = 0 ∨ samples = 0)
    (t : Tables) (s : SampleState) : decodeSamples t channels samples s = s := by
  rcases h with rfl | rfl
  · unfold decodeSamples
    induction samples with
    | zero => rfl
    | succ n ih =>
      rw [List.range_succ, List.foldl_append, ih]
      rfl
  · rfl

/-- The first byte of one channel is that of its first eight samples. -/
theorem decodeSamples_head (t : Tables) {samples : Nat} (hsamples : 8 ≤ samples) (s : SampleState) :
    (decodeSamples t 1 samples s).out[0]? = (decodeSamples t 1 8 s).out[0]? := by
  have hlater : ∀ (is : List Nat) (s : SampleState), (∀ i ∈ is, 8 ≤ i) →
      (is.foldl (fun s i => (List.range 1).foldl (Dst.decodeSample t 1 i) s) s).out[0]? =
        s.out[0]? := by
    intro is
    induction is with
    | nil => exact fun _ _ => rfl
    | cons i is ih =>
      intro s his
      rw [List.foldl_cons, ih _ fun i' hi' => his i' (List.mem_cons_of_mem _ hi')]
      have hi : 8 ≤ i := his i List.mem_cons_self
      have hne : i / 8 * 1 + 0 ≠ 0 := by omega
      simp only [List.range_one, List.foldl_cons, List.foldl_nil, Dst.decodeSample]
      exact List.getElem?_modify_ne _ _ hne
  unfold Dst.decodeSamples
  rw [show samples = 8 + (samples - 8) by omega, List.range_add, List.foldl_append]
  apply hlater
  intro i hi
  obtain ⟨k, -, rfl⟩ := List.mem_map.1 hi
  omega

end Samples

/-! ## Frames -/

/-- Both tables of a frame are read to their ends over those of a decoder and the filters
fit, or the frame is refused for its reserved bit. -/
def TablesRead (d : DstDecoder) (felem pelem : MapResult) : Prop :=
  (readTables d felem pelem).probs.gb.getBits1.1 = 1 ∨
    ((readTables d felem pelem).fsets.ok = true ∧ (readTables d felem pelem).probs.ok = true ∧
      (buildFilter (readTables d felem pelem).fsets.table (filterEntries felem.elements)
        d.filter).1 = true)

instance (d : DstDecoder) (felem pelem : MapResult) : Decidable (TablesRead d felem pelem) :=
  inferInstanceAs (Decidable (_ ∨ _))

def FrameHead.Complete (d : DstDecoder) : FrameHead → Prop
  | .mapped felem pelem => TablesRead d felem pelem
  | _ => True

instance (d : DstDecoder) : ∀ h : FrameHead, Decidable (h.Complete d)
  | .mapped felem pelem => inferInstanceAs (Decidable (TablesRead d felem pelem))
  | .invalid | .unsupported | .plain | .invalidMap _ _ => isTrue trivial

/-- A frame that gets as far as its tables has them complete, or there is nothing to decode. -/
def TablesComplete (d : DstDecoder) (frame : DstFrame) : Prop :=
  d.channels = 0 ∨ dstSamplesPerFrame d.sampleRate = 0 ∨ (readHead d.channels frame).Complete d

instance (d : DstDecoder) (frame : DstFrame) : Decidable (TablesComplete d frame) :=
  inferInstanceAs (Decidable (_ ∨ _))

/-- The decoder after a history of frames, each with what the output buffer held. -/
def DstDecoder.after (d : DstDecoder) (history : List (DstFrame × List UInt8)) : DstDecoder :=
  history.foldl (fun d f => (dstDecoderDecode d f.1 f.2).2) d

section Frames

variable {d d' : DstDecoder} {felem pelem : MapResult}

theorem readTables_agree (hchannels : d.channels = d'.channels) (felem pelem : MapResult) :
    (readTables d felem pelem).halfProb = (readTables d' felem pelem).halfProb ∧
      (readTables d felem pelem).fsets.Agree felem.elements (readTables d' felem pelem).fsets ∧
      (readTables d felem pelem).probs.Agree pelem.elements (readTables d' felem pelem).probs := by
  have hfsets := readTable_agree fsetsKind (readHalfProb pelem.gb d'.channels).1
    { d.fsets with elements := felem.elements } { d'.fsets with elements := felem.elements } rfl
  unfold readTables
  simp only [hchannels]
  refine ⟨trivial, hfsets, ?_⟩
  rw [hfsets.gb]
  exact readTable_agree probsKind _ { d.probs with elements := pelem.elements }
    { d'.probs with elements := pelem.elements } rfl

theorem readTables_elements (d : DstDecoder) (felem pelem : MapResult) :
    (readTables d felem pelem).fsets.table.elements = felem.elements :=
  readTableLoop_elements _ _ _ _ _

/-- With nothing to decode the tables are not used. -/
theorem decodeCoded_of_none (hchannels : d.channels = d'.channels)
    (hrate : d.sampleRate = d'.sampleRate)
    (hnone : d'.channels = 0 ∨ dstSamplesPerFrame d'.sampleRate = 0)
    (mapFelem mapPelem halfProb halfProb' : Nat → Nat) (out : List UInt8) :
    (decodeCoded d mapFelem mapPelem halfProb out).1 =
      (decodeCoded d' mapFelem mapPelem halfProb' out).1 := by
  unfold decodeCoded
  simp only [hchannels, hrate, decodeSamples_of_none hnone]

/-- The samples are decoded with the rows the channels are led to. -/
theorem decodeCoded_congr (hchannels : d.channels = d'.channels)
    (hrate : d.sampleRate = d'.sampleRate) (hgb : d.gb = d'.gb)
    (hfelements : d.fsets.elements = d'.fsets.elements)
    (hfsets : d.fsets.Agree d'.fsets.elements d'.fsets) {pelems : Nat}
    (hprobs : d.probs.Agree pelems d'.probs)
    (hfilter : (buildFilter d'.fsets (filterEntries d'.fsets.elements) d'.filter).1 = true)
    {mapFelem mapPelem : Nat → Nat} (hmapFelem : ∀ ch, mapFelem ch < d'.fsets.elements)
    (hmapPelem : ∀ ch, mapPelem ch < pelems) (halfProb : Nat → Nat) (out : List UInt8) :
    (decodeCoded d mapFelem mapPelem halfProb out).1 =
      (decodeCoded d' mapFelem mapPelem halfProb out).1 := by
  have hvalues : ∀ e ∈ filterEntries d'.fsets.elements,
      filterValue d.fsets e.1 e.2.1 e.2.2 = filterValue d'.fsets e.1 e.2.1 e.2.2 := by
    intro e he
    exact filterValue_congr hfsets (mem_filterEntries.1 he).1 _ _
  have hfilter' : (buildFilter d.fsets (filterEntries d'.fsets.elements) d.filter).1 = true := by
    rw [buildFilter_ok_iff] at hfilter ⊢
    intro e he
    rw [hvalues e he]
    exact hfilter e he
  have hagree : Tables.Agree d'.fsets.elements pelems
      ⟨d.fsets, d.probs, (buildFilter d.fsets (filterEntries d'.fsets.elements) d.filter).2,
        mapFelem, mapPelem, halfProb⟩
      ⟨d'.fsets, d'.probs, (buildFilter d'.fsets (filterEntries d'.fsets.elements) d'.filter).2,
        mapFelem, mapPelem, halfProb⟩ := by
    refine ⟨hfsets, hprobs, fun i hi j hj k hk => ?_, rfl, rfl, rfl, hmapFelem, hmapPelem⟩
    have hmem := mem_filterEntries.2 ⟨hi, hj, hk⟩
    dsimp only
    rw [buildFilter_apply hfilter (Or.inl hmem), buildFilter_apply hfilter' (Or.inl hmem)]
    exact hvalues _ hmem
  have hxbit : d.fsets.coeff 0 0 = d'.fsets.coeff 0 0 := by
    have hpos : 0 < d'.fsets.elements := Nat.lt_of_le_of_lt (Nat.zero_le _) (hmapFelem 0)
    exact hfsets.coeff 0 hpos 0 (hfsets.length_pos 0 hpos)
  unfold decodeCoded
  simp only [hchannels, hrate, hgb, hfelements, hxbit, hagree.decodeSamples]

/-- A frame with complete tables is decoded with what it has itself. -/
theorem decodeMapped_congr (hchannels : d.channels = d'.channels)
    (hrate : d.sampleRate = d'.sampleRate)
    (hmap : ∀ ch, felem.map ch < felem.elements ∧ pelem.map ch < pelem.elements)
    (hread : d'.channels = 0 ∨ dstSamplesPerFrame d'.sampleRate = 0 ∨ TablesRead d' felem pelem)
    (out : List UInt8) :
    (decodeMapped d felem pelem out).1 = (decodeMapped d' felem pelem out).1 := by
  obtain ⟨hhalf, hf, hp⟩ := readTables_agree hchannels felem pelem
  unfold decodeMapped
  simp only [hp.gb]
  by_cases hreserved : (readTables d' felem pelem).probs.gb.getBits1.1 = 1
  · simp only [if_pos hreserved]
  · simp only [if_neg hreserved]
    rcases or_assoc.2 hread with hnone | hread
    · apply decodeCoded_of_none
      · exact hchannels
      · exact hrate
      · exact hnone
    · obtain ⟨hfok, hpok, hfilter⟩ := hread.resolve_left hreserved
      have hftable := hf.table (hf.ok.trans hfok)
      rw [hhalf]
      apply decodeCoded_congr
      · exact hchannels
      · exact hrate
      · rfl
      · exact hf.elements
      · dsimp only
        rw [readTables_elements]
        exact hftable
      · exact hp.table (hp.ok.trans hpok)
      · dsimp only
        rw [readTables_elements]
        exact hfilter
      · dsimp only
        rw [readTables_elements]
        exact fun ch => (hmap ch).1
      · exact fun ch => (hmap ch).2

theorem dstDecoderDecode_congr (hchannels : d.channels = d'.channels)
    (hrate : d.sampleRate = d'.sampleRate) {frame : DstFrame} (hcomplete : TablesComplete d' frame)
    (out : List UInt8) :
    (dstDecoderDecode d frame out).1 = (dstDecoderDecode d' frame out).1 := by
  unfold TablesComplete at hcomplete
  unfold dstDecoderDecode
  simp only [hchannels]
  split
  · rfl
  · rfl
  · simp only [hrate]
  · rfl
  · next felem pelem hhead =>
    rw [hhead] at hcomplete
    exact decodeMapped_congr hchannels hrate (readHead_mapped hhead) hcomplete out

theorem dstDecoderDecode_same (d : DstDecoder) (frame : DstFrame) (out : List UInt8) :
    (dstDecoderDecode d frame out).2.channels = d.channels ∧
      (dstDecoderDecode d frame out).2.sampleRate = d.sampleRate := by
  unfold dstDecoderDecode
  split
  · exact ⟨rfl, rfl⟩
  · exact ⟨rfl, rfl⟩
  · exact ⟨rfl, rfl⟩
  · exact ⟨rfl, rfl⟩
  · unfold decodeMapped
    simp only
    split
    · exact ⟨rfl, rfl⟩
    · exact ⟨rfl, rfl⟩

theorem DstDecoder.after_same (d : DstDecoder) (history : List (DstFrame × List UInt8)) :
    (d.after history).channels = d.channels ∧ (d.after history).sampleRate = d.sampleRate := by
  induction history generalizing d with
  | nil => exact ⟨rfl, rfl⟩
  | cons f history ih =>
    have hstep := dstDecoderDecode_same d f.1 f.2
    have hrest := ih (dstDecoderDecode d f.1 f.2).2
    exact ⟨hrest.1.trans hstep.1, hrest.2.trans hstep.2⟩

end Frames

/-! ## Two frames of one channel -/

section Mono

/-- The coefficients one group of entries of the filter is made of, without their signs. -/
private def filterBound (fsets : DstTable) (i j : Nat) : Nat :=
  ((List.range (min (fsets.length i - j * 8) 8)).map fun l =>
    (fsets.coeff i (j * 8 + l)).natAbs).sum

private theorem natAbs_filterValue_le (fsets : DstTable) (i j k : Nat) :
    (filterValue fsets i j k).natAbs ≤ filterBound fsets i j := by
  unfold filterValue filterBound
  generalize List.range (min (fsets.length i - j * 8) 8) = ls
  induction ls with
  | nil => rfl
  | cons l ls ih =>
    have hsign : ((k / 2 ^ l % 2 : Nat) * 2 - 1 : Int).natAbs = 1 := by omega
    rw [List.map_cons, List.map_cons, List.sum_cons, List.sum_cons]
    refine (Int.natAbs_add_le _ _).trans (Nat.add_le_add ?_ ih)
    rw [Int.natAbs_mul, hsign, Nat.one_mul]

/-- Small coefficients have a filter that fits. -/
private theorem buildFilter_ok_of_bound {fsets : DstTable} {elements : Nat}
    (h : ∀ i < elements, ∀ j < 16, filterBound fsets i j < 2 ^ 15)
    (table : Nat → Nat → Nat → Int) :
    (buildFilter fsets (filterEntries elements) table).1 = true := by
  rw [buildFilter_ok_iff]
  intro e he
  have hmem := mem_filterEntries.1 he
  have hle := natAbs_filterValue_le fsets e.1 e.2.1 e.2.2
  have hlt := h e.1 hmem.1 e.2.1 hmem.2.1
  exact Int.bmod_eq_of_le (by omega) (by omega)

/-- The tables are read to their ends, and their coefficients are small. -/
private def SmallTables (d : DstDecoder) : FrameHead → Prop
  | .mapped felem pelem =>
    (readTables d felem pelem).fsets.ok = true ∧ (readTables d felem pelem).probs.ok = true ∧
      ∀ i < felem.elements, ∀ j < 16,
        filterBound (readTables d felem pelem).fsets.table i j < 2 ^ 15
  | _ => False

private instance (d : DstDecoder) : ∀ h : FrameHead, Decidable (SmallTables d h)
  | .mapped _ _ => inferInstanceAs (Decidable (_ ∧ _))
  | .invalid | .unsupported | .plain | .invalidMap _ _ => isFalse id

private theorem SmallTables.complete {d : DstDecoder} {head : FrameHead} (h : SmallTables d head) :
    head.Complete d := by
  cases head with
  | invalid | unsupported | plain | invalidMap felem pelem => exact h.elim
  | mapped felem pelem => exact .inr ⟨h.1, h.2.1, buildFilter_ok_of_bound h.2.2 d.filter⟩

private def monoFrame (bytes : List UInt8) : DstFrame := ⟨fun i => bytes.getD i 0, bytes.length⟩

/-- A frame with one filter of one coefficient. -/
private def completeFrame : DstFrame := monoFrame [0xFC, 0x00, 0x64, 0x00, 0xFC, 0x7D, 0x00]

/-- A frame whose filter has the method 3, which `read_table` refuses. -/
private def brokenFrame : DstFrame := monoFrame [0xFC, 0x03, 0x80, 0x7E, 0x3E, 0x80]

private def monoDecoder : DstDecoder where
  channels := 1
  sampleRate := 44100
  status := fun _ => ⟨0, 0⟩
  filter := fun _ _ _ => 0
  gb := ⟨fun _ => 0, 0, 0⟩
  ac := ⟨0, 0⟩
  fsets := .blank
  probs := .blank

/-- The first byte of the samples, with the filter as a formula. -/
private def firstByte (d : DstDecoder) : FrameHead → Option UInt8
  | .mapped felem pelem =>
    let t := readTables d felem pelem
    let ac := acInit t.probs.gb.getBits1.2
    let xbit := acGet ac.1 ac.2 (probDstXBit (t.fsets.table.coeff 0 0))
    (decodeSamples
      ⟨t.fsets.table, t.probs.table, filterValue t.fsets.table, felem.map, pelem.map, t.halfProb⟩ 1 8
      ⟨xbit.2.2, xbit.2.1, fun _ => ⟨0xAAAAAAAAAAAAAAAA, 0xAAAAAAAAAAAAAAAA⟩,
        List.replicate 73 0⟩).out[0]?
  | _ => none

/-- The frame is decoded, with a filter that fits. -/
private def Decoded (d : DstDecoder) : FrameHead → Prop
  | .mapped felem pelem =>
    (readTables d felem pelem).probs.gb.getBits1.1 ≠ 1 ∧
      (∀ i < felem.elements, 0 < (readTables d felem pelem).fsets.table.length i) ∧
      (∀ i < pelem.elements, 0 < (readTables d felem pelem).probs.table.length i) ∧
      (buildFilter (readTables d felem pelem).fsets.table (filterEntries felem.elements)
        d.filter).1 = true
  | _ => False

private instance (d : DstDecoder) : ∀ h : FrameHead, Decidable (Decoded d h)
  | .mapped _ _ => inferInstanceAs (Decidable (_ ∧ _))
  | .invalid | .unsupported | .plain | .invalidMap _ _ => isFalse id

/-- The same with coefficients that are small. -/
private def SmallDecoded (d : DstDecoder) : FrameHead → Prop
  | .mapped felem pelem =>
    (readTables d felem pelem).probs.gb.getBits1.1 ≠ 1 ∧
      (∀ i < felem.elements, 0 < (readTables d felem pelem).fsets.table.length i) ∧
      (∀ i < pelem.elements, 0 < (readTables d felem pelem).probs.table.length i) ∧
      ∀ i < felem.elements, ∀ j < 16,
        filterBound (readTables d felem pelem).fsets.table i j < 2 ^ 15
  | _ => False

private instance (d : DstDecoder) : ∀ h : FrameHead, Decidable (SmallDecoded d h)
  | .mapped _ _ => inferInstanceAs (Decidable (_ ∧ _))
  | .invalid | .unsupported | .plain | .invalidMap _ _ => isFalse id

private theorem SmallDecoded.decoded {d : DstDecoder} {head : FrameHead} (h : SmallDecoded d head) :
    Decoded d head := by
  cases head with
  | invalid | unsupported | plain | invalidMap felem pelem => exact h.elim
  | mapped felem pelem =>
    exact ⟨h.1, h.2.1, h.2.2.1, buildFilter_ok_of_bound h.2.2.2 d.filter⟩

private theorem out_firstByte {d : DstDecoder} {frame : DstFrame} (hchannels : d.channels = 1)
    (hrate : d.sampleRate = 44100) (hdecoded : Decoded d (readHead 1 frame)) :
    (dstDecoderDecode d frame []).1.out[0]? = firstByte d (readHead 1 frame) := by
  unfold dstDecoderDecode
  rw [hchannels]
  cases hhead : readHead 1 frame with
  | invalid | unsupported | plain | invalidMap felem pelem =>
    rw [hhead] at hdecoded
    exact hdecoded.elim
  | mapped felem pelem =>
    rw [hhead] at hdecoded
    obtain ⟨hreserved, hflength, hplength, hfilter⟩ := hdecoded
    have hmap := readHead_mapped hhead
    have hsamples : dstSamplesPerFrame 44100 = 588 := rfl
    have hagree : Tables.Agree felem.elements pelem.elements
        ⟨(readTables d felem pelem).fsets.table, (readTables d felem pelem).probs.table,
          (buildFilter (readTables d felem pelem).fsets.table (filterEntries felem.elements)
            d.filter).2, felem.map, pelem.map, (readTables d felem pelem).halfProb⟩
        ⟨(readTables d felem pelem).fsets.table, (readTables d felem pelem).probs.table,
          filterValue (readTables d felem pelem).fsets.table, felem.map, pelem.map,
          (readTables d felem pelem).halfProb⟩ := by
      refine ⟨⟨fun _ _ => rfl, hflength, fun _ _ _ _ => rfl⟩,
        ⟨fun _ _ => rfl, hplength, fun _ _ _ _ => rfl⟩, fun i hi j hj k hk => ?_, rfl, rfl, rfl,
        fun ch => (hmap ch).1, fun ch => (hmap ch).2⟩
      exact buildFilter_apply hfilter (Or.inl (mem_filterEntries.2 ⟨hi, hj, hk⟩))
    unfold decodeMapped
    simp only [if_neg hreserved]
    unfold decodeCoded
    simp only [hchannels, hrate, hsamples, readTables_elements, hagree.decodeSamples]
    rw [decodeSamples_head _ (by omega)]
    rfl

end Mono

end DsdNexus.Dst
