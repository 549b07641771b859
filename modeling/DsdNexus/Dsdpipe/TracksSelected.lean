import Mathlib.Data.Fintype.Card
import DsdNexus.Dsdpipe.TrackSelect
import DsdNexus.Lib.Reads

/-! # The tracks a string selects

Each scan of the parser takes a token off the front of the string; the loop takes items off it
until nothing is left. What is added is kept in the order of first occurrence.
-/

namespace DsdNexus.Dsdpipe.TrackSelect

open Program

/-! ## Adding tracks -/

section Adding

/-- The tracks added so far, in order, and room for them. -/
structure Holds (sel : TrackSelection) (added : List UInt8) : Prop where
  tracks : sel.tracks = added.eraseDups
  positive : 0 ∉ added
  room : sel.tracks.length ≤ sel.capacity

theorem eraseDups_concat (added : List UInt8) (track : UInt8) :
    (added ++ [track]).eraseDups =
      if track ∈ added.eraseDups then added.eraseDups else added.eraseDups ++ [track] := by
  rw [List.eraseDups_append]
  by_cases h : track ∈ added
  · rw [if_pos (List.mem_eraseDups.2 h)]
    simp [List.removeAll, h]
  · rw [if_neg (List.mem_eraseDups.not.2 h)]
    simp [List.removeAll, h, List.eraseDups_cons]

theorem nodup_eraseDups (added : List UInt8) : added.eraseDups.Nodup := by
  induction added using List.reverseRecOn with
  | nil => exact List.nodup_nil
  | append_singleton added track ih =>
    rw [eraseDups_concat]
    split
    · exact ih
    · next h => exact List.nodup_append.2 ⟨ih, List.nodup_singleton track, by
        intro x hx y hy heq
        rw [List.mem_singleton.1 hy] at heq
        exact h (heq ▸ hx)⟩

/-- There are no more than 256 tracks. -/
theorem length_le_of_nodup {tracks : List UInt8} (h : tracks.Nodup) : tracks.length ≤ 256 := by
  have hfin : (tracks.map UInt8.toFin).Nodup :=
    h.map fun x y hxy => UInt8.toFin_inj.1 hxy
  have hcard := hfin.length_le_card
  rwa [List.length_map, Fintype.card_fin] at hcard

/-- With 0 and another track left out there is room for that track. -/
theorem length_lt_maxTracks {tracks : List UInt8} {track : UInt8} (h : tracks.Nodup)
    (hzero : 0 ∉ tracks) (htrack : track ≠ 0) (hnew : track ∉ tracks) :
    tracks.length < maxTracks := by
  have hall : (0 :: track :: tracks).Nodup := by
    refine List.nodup_cons.2 ⟨?_, List.nodup_cons.2 ⟨hnew, h⟩⟩
    rw [List.mem_cons, not_or]
    exact ⟨htrack.symm, hzero⟩
  have hlength := length_le_of_nodup hall
  rw [List.length_cons, List.length_cons] at hlength
  have hmax : maxTracks = 255 := rfl
  omega

theorem add_holds {sel : TrackSelection} {added : List UInt8} (h : Holds sel added)
    {track : UInt8} (htrack : track ≠ 0) :
    ∃ sel', add track sel = (.ok (), sel') ∧ Holds sel' (added ++ [track]) := by
  have hpositive : 0 ∉ added ++ [track] := by
    rw [List.mem_append, List.mem_singleton, not_or]
    exact ⟨h.positive, htrack.symm⟩
  rw [add, if_neg htrack]
  by_cases hmem : track ∈ sel.tracks
  · refine ⟨sel, if_pos hmem, ?_, hpositive, h.room⟩
    rw [eraseDups_concat, ← h.tracks, if_pos hmem]
  · rw [if_neg hmem]
    have hconcat : sel.tracks ++ [track] = (added ++ [track]).eraseDups := by
      rw [eraseDups_concat, ← h.tracks, if_neg hmem]
    have hlength : sel.tracks.length < maxTracks := by
      refine length_lt_maxTracks ?_ ?_ htrack hmem
      · rw [h.tracks]
        exact nodup_eraseDups added
      · rw [h.tracks, List.mem_eraseDups]
        exact h.positive
    by_cases hroom : sel.tracks.length < sel.capacity
    · have hcapacity : ensureCapacity sel = (.ok (), sel) := if_pos hroom
      refine ⟨_, bind_of_ok hcapacity, hconcat, hpositive, ?_⟩
      rw [List.length_append, List.length_singleton]
      exact hroom
    · have hdouble : sel.tracks.length < sel.capacity * 2 := by
        have hpos := sel.capacity_pos
        have hold := h.room
        omega
      have hmore : sel.tracks.length < min (sel.capacity * 2) maxTracks :=
        Nat.lt_min.2 ⟨hdouble, hlength⟩
      have hcapacity : ∃ sel', ensureCapacity sel = (.ok (), sel') ∧ sel'.tracks = sel.tracks ∧
          sel'.capacity = min (sel.capacity * 2) maxTracks := by
        rw [ensureCapacity, if_neg hroom, if_neg (Nat.not_le.2 hmore)]
        exact ⟨_, rfl, rfl, rfl⟩
      obtain ⟨sel', hcapacity, htracks, hsize⟩ := hcapacity
      refine ⟨{ sel' with tracks := sel'.tracks ++ [track] }, bind_of_ok hcapacity, ?_, hpositive,
        ?_⟩
      · rw [htracks]
        exact hconcat
      · rw [List.length_append, List.length_singleton, htracks, hsize]
        exact hmore

theorem addEach_holds {sel : TrackSelection} {added : List UInt8} (h : Holds sel added)
    {tracks : List UInt8} (htracks : 0 ∉ tracks) :
    ∃ sel', addEach tracks sel = (.ok (), sel') ∧ Holds sel' (added ++ tracks) := by
  induction tracks generalizing sel added with
  | nil => exact ⟨sel, rfl, by rwa [List.append_nil]⟩
  | cons track tracks ih =>
    rw [List.mem_cons, not_or] at htracks
    obtain ⟨sel', hadd, hholds⟩ := add_holds h (Ne.symm htracks.1)
    obtain ⟨sel'', hrest, hall⟩ := ih hholds htracks.2
    refine ⟨sel'', (bind_of_ok hadd).trans hrest, ?_⟩
    rwa [List.append_assoc] at hall

theorem clear_holds (sel : TrackSelection) : Holds sel.clear [] where
  tracks := rfl
  positive := List.not_mem_nil
  room := Nat.zero_le _

theorem zero_not_mem_map {ns : List Nat} (h : ∀ n ∈ ns, 1 ≤ n ∧ n ≤ 255) :
    0 ∉ ns.map UInt8.ofNat := by
  intro hmem
  obtain ⟨n, hn, hzero⟩ := List.mem_map.1 hmem
  have htoNat := congrArg UInt8.toNat hzero
  have hlt := h n hn
  rw [UInt8.toNat_ofNat', Nat.mod_eq_of_lt (by omega)] at htoNat
  exact absurd htoNat (by have hz : (0 : UInt8).toNat = 0 := rfl; omega)

theorem zero_not_mem_allTracks (maxTrack : UInt8) : 0 ∉ allTracks maxTrack := by
  refine zero_not_mem_map fun n hn => ?_
  have hlt := maxTrack.toNat_lt
  rw [List.mem_range'_1] at hn
  omega

theorem allTracks_eraseDups (maxTrack : UInt8) :
    (allTracks maxTrack).eraseDups = allTracks maxTrack := by
  have hnodup : (allTracks maxTrack).Nodup := by
    refine List.Nodup.map_on ?_ List.nodup_range'
    intro x hx y hy hxy
    have hlt := maxTrack.toNat_lt
    have htoNat := congrArg UInt8.toNat hxy
    rw [List.mem_range'_1] at hx hy
    rwa [UInt8.toNat_ofNat', UInt8.toNat_ofNat', Nat.mod_eq_of_lt (by omega),
      Nat.mod_eq_of_lt (by omega)] at htoNat
  generalize allTracks maxTrack = tracks at hnodup
  induction tracks using List.reverseRecOn with
  | nil => rfl
  | append_singleton tracks track ih =>
    obtain ⟨hleft, -, hapart⟩ := List.nodup_append.1 hnodup
    rw [eraseDups_concat, ih hleft, if_neg]
    intro hmem
    exact hapart track hmem track (List.mem_singleton_self track) rfl

/-- The loop up to a limit below 255 ends there. -/
theorem countUp_eq {limit : UInt8} (h : limit ≠ 255) : countUp limit = allTracks limit := by
  have hlt := limit.toNat_lt
  have hne : limit.toNat ≠ 255 := fun heq => h (UInt8.toNat_inj.1 heq)
  have hsplit : (List.range 256).map (fun i => UInt8.ofNat (i + 1)) =
      allTracks limit ++ UInt8.ofNat (1 + limit.toNat) ::
        (List.range' (1 + limit.toNat + 1) (255 - limit.toNat)).map UInt8.ofNat := by
    have hcount : 256 = limit.toNat + (255 - limit.toNat + 1) := by omega
    have hrange : (List.range 256).map (fun i => UInt8.ofNat (i + 1)) =
        (List.range' 1 256).map UInt8.ofNat := by
      rw [List.range'_eq_map_range, List.map_map]
      refine List.map_congr_left fun i hi => ?_
      rw [Function.comp_apply, Nat.add_comm]
    rw [hrange, hcount, ← List.range'_append_1, List.map_append, List.range'_succ, List.map_cons]
    rfl
  rw [countUp, hsplit, List.takeWhile_append_of_pos]
  · rw [List.takeWhile_cons_of_neg, List.append_nil]
    rw [decide_eq_true_iff, UInt8.le_iff_toNat_le, UInt8.toNat_ofNat',
      Nat.mod_eq_of_lt (by omega)]
    omega
  · intro track htrack
    obtain ⟨n, hn, rfl⟩ := List.mem_map.1 htrack
    rw [List.mem_range'_1] at hn
    rw [decide_eq_true_iff, UInt8.le_iff_toNat_le, UInt8.toNat_ofNat',
      Nat.mod_eq_of_lt (by omega)]
    omega

theorem addEach_countUp (sel : TrackSelection) {limit : UInt8} (h : limit ≠ 255) :
    ∃ sel', addEach (countUp limit) sel.clear = (.ok (), sel') ∧
      sel'.tracks = allTracks limit := by
  obtain ⟨sel', hadd, hholds⟩ := addEach_holds (clear_holds sel) (zero_not_mem_allTracks limit)
  refine ⟨sel', by rwa [countUp_eq h], ?_⟩
  rw [hholds.tracks, List.nil_append, allTracks_eraseDups]

end Adding

/-! ## Characters -/

section Characters

theorem isSpace_of_isDigit {c : UInt8} (h : isDigit c = true) : isSpace c = false := by
  simp only [isDigit, isSpace, Bool.and_eq_true, decide_eq_true_eq, UInt8.le_iff_toNat_le,
    Bool.or_eq_false_iff, decide_eq_false_iff_not, Bool.and_eq_false_iff,
    ← UInt8.toNat_inj] at h ⊢
  simp at h ⊢
  omega

theorem isSpace_comma : isSpace comma = false := by decide

theorem isSpace_dash : isSpace dash = false := by decide

theorem isDigit_comma : isDigit comma = false := by decide

theorem isDigit_dash : isDigit dash = false := by decide

theorem blank_nil : Blank [] := fun _ hc => absurd hc List.not_mem_nil

theorem Blank.append {w w' : Bytes} (h : Blank w) (h' : Blank w') : Blank (w ++ w') :=
  fun c hc => (List.mem_append.1 hc).elim (h c) (h' c)

/-- White space in front is skipped. -/
theorem skipWhitespace_append {w : Bytes} (h : Blank w) (s : Bytes) :
    skipWhitespace (w ++ s) = skipWhitespace s := List.dropWhile_append_of_pos h

theorem skipWhitespace_cons {c : UInt8} (h : isSpace c = false) (s : Bytes) :
    skipWhitespace (c :: s) = c :: s := List.dropWhile_cons_of_neg (by rw [h]; decide)

/-- What is skipped is white space, and no more of it follows. -/
theorem skipWhitespace_split (s : Bytes) : ∃ w, Blank w ∧ s = w ++ skipWhitespace s ∧
    ∀ c ∈ (skipWhitespace s).head?, isSpace c = false := by
  refine ⟨s.takeWhile isSpace, fun c hc => List.mem_takeWhile_imp hc,
    List.takeWhile_append_dropWhile.symm, fun c hc => ?_⟩
  have hhead := List.head?_dropWhile_not isSpace s
  rw [Option.mem_def] at hc
  rw [skipWhitespace] at hc
  rw [hc] at hhead
  exact hhead

theorem skipWhitespace_eq_nil {s : Bytes} : skipWhitespace s = [] ↔ Blank s := by
  constructor
  · intro h
    obtain ⟨w, hw, hs, -⟩ := skipWhitespace_split s
    rw [h, List.append_nil] at hs
    exact hs ▸ hw
  · intro h
    have hskip := skipWhitespace_append h []
    rwa [List.append_nil] at hskip

theorem skipWhitespace_skipWhitespace (s : Bytes) :
    skipWhitespace (skipWhitespace s) = skipWhitespace s := by
  obtain ⟨w, hw, hs, -⟩ := skipWhitespace_split s
  have hskip := skipWhitespace_append hw (skipWhitespace s)
  rw [← hs] at hskip
  exact hskip.symm

end Characters

/-! ## Numbers -/

section Numbers

theorem NumbersFit.suffix {s t : Bytes} (h : NumbersFit (s ++ t)) : NumbersFit t :=
  fun before digits after ht hdigits =>
    h (s ++ before) digits after (by rw [ht, List.append_assoc]) hdigits

/-- The value in an `unsigned int`. -/
theorem foldl_digits (digits : Bytes) (v : UInt32) (n : Nat) (hv : v.toNat = n % 2 ^ 32) :
    (digits.foldl (fun v c => v * 10 + UInt32.ofNat (c.toNat - 0x30)) v).toNat =
      digits.foldl (fun n c => n * 10 + (c.toNat - 0x30)) n % 2 ^ 32 := by
  induction digits generalizing v n with
  | nil => exact hv
  | cons c digits ih =>
    rw [List.foldl_cons, List.foldl_cons]
    refine ih _ _ ?_
    have hten : (10 : UInt32).toNat = 10 := rfl
    rw [UInt32.toNat_add, UInt32.toNat_mul, UInt32.toNat_ofNat', hv, hten]
    omega

/-- A number is scanned up to its last digit. -/
theorem parseUint_append {w t rest : Bytes} {n : Nat} (hw : Blank w) (ht : Number n t)
    (hrest : ∀ c ∈ rest.head?, isDigit c = false) :
    parseUint (w ++ (t ++ rest)) = some (UInt32.ofNat n, rest) := by
  obtain ⟨c, t', rfl⟩ := List.exists_cons_of_ne_nil ht.nonempty
  have hdigit : isDigit c = true := ht.digits c List.mem_cons_self
  have hstop : rest.takeWhile isDigit = [] ∧ rest.dropWhile isDigit = rest := by
    cases rest with
    | nil => exact ⟨rfl, rfl⟩
    | cons d rest =>
      have hd : ¬ isDigit d = true := by
        rw [hrest d rfl]
        decide
      exact ⟨List.takeWhile_cons_of_neg hd, List.dropWhile_cons_of_neg hd⟩
  have hskip : skipWhitespace (w ++ (c :: t' ++ rest)) = c :: t' ++ rest := by
    rw [skipWhitespace_append hw, List.cons_append,
      skipWhitespace_cons (isSpace_of_isDigit hdigit)]
  have htake : (c :: t' ++ rest).takeWhile isDigit = c :: t' := by
    rw [List.takeWhile_append_of_pos ht.digits, hstop.1, List.append_nil]
  have hdrop : (c :: t' ++ rest).dropWhile isDigit = rest := by
    rw [List.dropWhile_append_of_pos ht.digits, hstop.2]
  have hvalue : (c :: t').foldl (fun v c => v * 10 + UInt32.ofNat (c.toNat - 0x30)) 0 =
      UInt32.ofNat n := by
    rw [← UInt32.toNat_inj, foldl_digits (c :: t') 0 0 rfl, UInt32.toNat_ofNat', ← ht.value]
    rfl
  simp only [parseUint, hskip, htake, hdrop, hvalue]
  exact if_neg (List.cons_ne_nil c t')

/-- What is scanned as a number is one, with white space in front and no digit behind. -/
theorem parseUint_eq_some {p rest : Bytes} {v : UInt32} (hfit : NumbersFit p)
    (h : parseUint p = some (v, rest)) :
    ∃ w t, p = w ++ (t ++ rest) ∧ Blank w ∧ Number v.toNat t ∧
      ∀ c ∈ rest.head?, isDigit c = false := by
  obtain ⟨w, hw, hp, -⟩ := skipWhitespace_split p
  simp only [parseUint] at h
  split at h
  · cases h
  · next hdigits =>
    obtain ⟨hv, hrest⟩ := Prod.mk.inj (Option.some.inj h)
    have hsplit : skipWhitespace p = (skipWhitespace p).takeWhile isDigit ++ rest := by
      rw [← hrest, List.takeWhile_append_dropWhile]
    have hall : ∀ c ∈ (skipWhitespace p).takeWhile isDigit, isDigit c = true :=
      fun c hc => List.mem_takeWhile_imp hc
    have hlt : digitsValue ((skipWhitespace p).takeWhile isDigit) < 2 ^ 32 :=
      hfit w _ rest (by rw [← hsplit, ← hp]) hall
    refine ⟨w, (skipWhitespace p).takeWhile isDigit, by rw [← hsplit, ← hp], hw,
      ⟨hdigits, hall, ?_⟩, fun c hc => ?_⟩
    · rw [← hv, foldl_digits _ 0 0 rfl]
      exact (Nat.mod_eq_of_lt hlt).symm
    · have hhead := List.head?_dropWhile_not isDigit (skipWhitespace p)
      rw [hrest, Option.mem_def.1 hc] at hhead
      exact hhead

theorem parseTrack_append {maxTrack : UInt8} {w t rest : Bytes} {n : Nat} (hw : Blank w)
    (ht : Number n t) (hn : 1 ≤ n ∧ n ≤ maxTrack.toNat)
    (hrest : ∀ c ∈ rest.head?, isDigit c = false) :
    parseTrack maxTrack (w ++ (t ++ rest)) = .ok (UInt32.ofNat n, rest) := by
  have hlt := maxTrack.toNat_lt
  have htoNat : (UInt32.ofNat n).toNat = n := by
    rw [UInt32.toNat_ofNat', Nat.mod_eq_of_lt (by omega)]
  rw [parseTrack, parseUint_append hw ht hrest]
  refine if_neg ?_
  rw [← UInt32.toNat_inj, htoNat]
  have hzero : (0 : UInt32).toNat = 0 := rfl
  omega

theorem parseTrack_eq_ok {maxTrack : UInt8} {p rest : Bytes} {v : UInt32} (hfit : NumbersFit p)
    (h : parseTrack maxTrack p = .ok (v, rest)) :
    (1 ≤ v.toNat ∧ v.toNat ≤ maxTrack.toNat) ∧ ∃ w t, p = w ++ (t ++ rest) ∧ Blank w ∧
      Number v.toNat t ∧ ∀ c ∈ rest.head?, isDigit c = false := by
  rw [parseTrack] at h
  cases hscan : parseUint p with
  | none =>
    rw [hscan] at h
    cases h
  | some scanned =>
    rw [hscan] at h
    simp only [] at h
    split at h
    · cases h
    · next hvalid =>
      cases h
      rw [← UInt32.toNat_inj, not_or] at hvalid
      have hzero : (0 : UInt32).toNat = 0 := rfl
      exact ⟨by omega, parseUint_eq_some hfit hscan⟩

end Numbers

/-! ## Items -/

section Items

variable {maxTrack : UInt8} {item : Item} {items : List Item}

theorem no_digit_behind {w rest : Bytes} (hw : Blank w)
    (hrest : ∀ c ∈ rest.head?, isDigit c = false) : ∀ c ∈ (w ++ rest).head?, isDigit c = false := by
  cases w with
  | nil => exact hrest
  | cons d w =>
    intro c hc
    obtain rfl : d = c := Option.some.inj hc
    have hspace := hw d List.mem_cons_self
    by_contra hdigit
    rw [isSpace_of_isDigit (Bool.not_eq_false _ ▸ hdigit)] at hspace
    exact absurd hspace (by decide)

/-- Where an item may end. -/
theorem separated {rest : Bytes} (h : rest = [] ∨ ∃ r, rest = comma :: r) :
    (∀ c ∈ rest.head?, isDigit c = false) ∧ skipWhitespace rest = rest := by
  rcases h with rfl | ⟨r, rfl⟩
  · exact ⟨fun c hc => absurd hc (Option.not_mem_none c), rfl⟩
  · refine ⟨fun c hc => ?_, skipWhitespace_cons isSpace_comma r⟩
    obtain rfl : comma = c := Option.some.inj hc
    exact isDigit_comma

theorem skipWhitespace_number {w t : Bytes} {n : Nat} (hw : Blank w) (ht : Number n t)
    (rest : Bytes) : skipWhitespace (w ++ (t ++ rest)) = t ++ rest := by
  obtain ⟨c, t', rfl⟩ := List.exists_cons_of_ne_nil ht.nonempty
  rw [skipWhitespace_append hw, List.cons_append,
    skipWhitespace_cons (isSpace_of_isDigit (ht.digits c List.mem_cons_self))]

theorem parseItem_append {s rest : Bytes} (h : item.Spells s) (hvalid : item.Valid maxTrack)
    (hrest : rest = [] ∨ ∃ r, rest = comma :: r) :
    parseItem maxTrack (s ++ rest) = .ok (item.tracks, rest) := by
  obtain ⟨hdigit, hskip⟩ := separated hrest
  have hlt := maxTrack.toNat_lt
  cases item with
  | single n =>
    obtain ⟨w, t, w', rfl, hw, ht, hw'⟩ := h
    have htoNat : (UInt32.ofNat n).toNat = n := by
      rw [UInt32.toNat_ofNat', Nat.mod_eq_of_lt (by have := hvalid.2; omega)]
    have hfirst := parseTrack_append hw ht hvalid (no_digit_behind hw' hdigit)
    rw [List.append_assoc, List.append_assoc, parseItem, Attempt.bind_of_ok hfirst]
    simp only []
    rw [skipWhitespace_append hw', hskip, htoNat]
    rcases hrest with rfl | ⟨r, rfl⟩
    · rfl
    · exact if_neg (by decide)
  | range a b =>
    obtain ⟨x, y, rfl, ⟨w, t, w', rfl, hw, ht, hw'⟩, ⟨v, u, v', rfl, hv, hu, hv'⟩⟩ := h
    have hto : ∀ n, n ≤ maxTrack.toNat → (UInt32.ofNat n).toNat = n := fun n hn => by
      rw [UInt32.toNat_ofNat', Nat.mod_eq_of_lt (by omega)]
    have hdash : ∀ c ∈ (dash :: (v ++ (u ++ v')) ++ rest).head?, isDigit c = false := by
      intro c hc
      obtain rfl : dash = c := Option.some.inj hc
      exact isDigit_dash
    have hfirst := parseTrack_append hw ht hvalid.1 (no_digit_behind hw' hdash)
    have hsecond := parseTrack_append blank_nil hu hvalid.2 (no_digit_behind hv' hdigit)
    have hbetween : skipWhitespace (w' ++ (dash :: (v ++ (u ++ v')) ++ rest)) =
        dash :: (v ++ (u ++ (v' ++ rest))) := by
      rw [skipWhitespace_append hw', List.cons_append, skipWhitespace_cons isSpace_dash,
        List.append_assoc, List.append_assoc]
    rw [List.nil_append] at hsecond
    rw [List.append_assoc, List.append_assoc, List.append_assoc, parseItem,
      Attempt.bind_of_ok hfirst]
    simp only []
    rw [hbetween]
    simp only [if_true]
    rw [skipWhitespace_number hv hu, Attempt.bind_of_ok hsecond]
    simp only []
    rw [skipWhitespace_append hv', hskip, hto a hvalid.1.2, hto b hvalid.2.2]
    rfl

/-- What is parsed as an item is one, with white space behind it and no further digit. -/
theorem parseItem_eq_ok {p rest : Bytes} {tracks : List UInt8} (hfit : NumbersFit p)
    (h : parseItem maxTrack p = .ok (tracks, rest)) :
    ∃ (item : Item) (s w : Bytes), p = s ++ (w ++ rest) ∧ item.Spells s ∧ Blank w ∧
      item.Valid maxTrack ∧ tracks = item.tracks ∧
      ∀ c ∈ (w ++ rest).head?, isDigit c = false := by
  obtain ⟨⟨start, q⟩, hfirst, hbehind⟩ := Attempt.bind_eq_ok.1 h
  obtain ⟨hstart, w, t, rfl, hw, ht, hq⟩ := parseTrack_eq_ok hfit hfirst
  obtain ⟨w', hw', hsplit, -⟩ := skipWhitespace_split q
  simp only [] at hbehind
  have hsingle : (Item.single start.toNat).Spells (w ++ t) :=
    ⟨w, t, [], by rw [List.append_nil], hw, ht, blank_nil⟩
  split at hbehind
  · next hend =>
    cases hbehind
    rw [hend] at hsplit
    exact ⟨.single start.toNat, w ++ t, w', by rw [← hsplit, List.append_assoc], hsingle, hw',
      hstart, rfl, hsplit ▸ hq⟩
  · next c r hnext =>
    rw [hnext] at hsplit
    split at hbehind
    · next hdash =>
      rw [hdash] at hsplit
      obtain ⟨⟨stop, q'⟩, hsecond, hend⟩ := Attempt.bind_eq_ok.1 hbehind
      cases hend
      obtain ⟨v, hv, hr, -⟩ := skipWhitespace_split r
      have hall : w ++ (t ++ q) = w ++ t ++ w' ++ [dash] ++ v ++ skipWhitespace r := by
        rw [hsplit]
        simp only [List.append_assoc, List.cons_append, List.nil_append, ← hr]
      have hfit' : NumbersFit (skipWhitespace r) := (hall ▸ hfit).suffix
      obtain ⟨hstop, v', u, hr', hv', hu, hq'⟩ := parseTrack_eq_ok hfit' hsecond
      obtain ⟨w'', hw'', hsplit', -⟩ := skipWhitespace_split q'
      refine ⟨.range start.toNat stop.toNat, w ++ (t ++ w') ++ dash :: (v ++ v' ++ u), w'', ?_,
        ⟨_, _, rfl, ⟨w, t, w', rfl, hw, ht, hw'⟩,
          ⟨v ++ v', u, [], ?_, hv.append hv', hu, blank_nil⟩⟩,
        hw'', ⟨hstart, hstop⟩, rfl, hsplit' ▸ hq'⟩
      · rw [hall, hr', ← hsplit']
        simp only [List.append_assoc, List.cons_append, List.nil_append]
      · rw [List.append_nil]
    · next hdash =>
      cases hbehind
      exact ⟨.single start.toNat, w ++ t, w', by rw [← hsplit, List.append_assoc], hsingle, hw',
        hstart, rfl, hsplit ▸ hq⟩

end Items

/-! ## The list -/

section List

variable {maxTrack : UInt8} {item : Item} {items : List Item}

theorem Spaced.blank_append {token : Bytes → Prop} {w s : Bytes} (hw : Blank w)
    (h : Spaced token s) : Spaced token (w ++ s) := by
  obtain ⟨v, t, v', rfl, hv, ht, hv'⟩ := h
  exact ⟨w ++ v, t, v', by rw [List.append_assoc], hw.append hv, ht, hv'⟩

theorem Item.Spells.blank_append {w s : Bytes} (hw : Blank w) (h : item.Spells s) :
    item.Spells (w ++ s) := by
  cases item with
  | single n => exact Spaced.blank_append hw h
  | range a b =>
    obtain ⟨x, y, rfl, hx, hy⟩ := h
    exact ⟨w ++ x, y, by rw [List.append_assoc], hx.blank_append hw, hy⟩

theorem Spaced.append_blank {token : Bytes → Prop} {w s : Bytes} (h : Spaced token s)
    (hw : Blank w) : Spaced token (s ++ w) := by
  obtain ⟨v, t, v', rfl, hv, ht, hv'⟩ := h
  exact ⟨v, t, v' ++ w, by simp only [List.append_assoc], hv, ht, hv'.append hw⟩

theorem Item.Spells.append_blank {w s : Bytes} (h : item.Spells s) (hw : Blank w) :
    item.Spells (s ++ w) := by
  cases item with
  | single n => exact Spaced.append_blank h hw
  | range a b =>
    obtain ⟨x, y, rfl, hx, hy⟩ := h
    exact ⟨x, y ++ w, by rw [List.append_assoc, List.cons_append], hx, hy.append_blank hw⟩

theorem Listed.blank_append {w s : Bytes} (hw : Blank w) (h : Listed items s) :
    Listed items (w ++ s) := by
  cases h with
  | blank h => exact .blank (hw.append h)
  | last h => exact .last (h.blank_append hw)
  | cons h hrest =>
    rw [← List.append_assoc]
    exact .cons (h.blank_append hw) hrest

theorem Begins.blank_append {w s : Bytes} (hw : Blank w) (h : Begins items s) :
    Begins items (w ++ s) := by
  cases h with
  | nil => exact .nil _
  | last h hrest =>
    rw [← List.append_assoc]
    exact .last (h.blank_append hw) hrest
  | cons h hrest =>
    rw [← List.append_assoc]
    exact .cons (h.blank_append hw) hrest

/-- An item starts with a digit behind its white space. -/
theorem Item.Spells.skip {s : Bytes} (h : item.Spells s) : ∃ c s', isDigit c = true ∧
    item.Spells (c :: s') ∧ ∀ rest, skipWhitespace (s ++ rest) = c :: s' ++ rest := by
  cases item with
  | single n =>
    obtain ⟨w, t, w', rfl, hw, ht, hw'⟩ := h
    obtain ⟨c, t', rfl⟩ := List.exists_cons_of_ne_nil ht.nonempty
    refine ⟨c, t' ++ w', ht.digits c List.mem_cons_self,
      ⟨[], c :: t', w', rfl, blank_nil, ht, hw'⟩, fun rest => ?_⟩
    rw [List.append_assoc, List.append_assoc, skipWhitespace_number hw ht]
    simp only [List.cons_append, List.append_assoc]
  | range a b =>
    obtain ⟨x, y, rfl, ⟨w, t, w', rfl, hw, ht, hw'⟩, hy⟩ := h
    obtain ⟨c, t', rfl⟩ := List.exists_cons_of_ne_nil ht.nonempty
    refine ⟨c, t' ++ w' ++ dash :: y, ht.digits c List.mem_cons_self,
      ⟨c :: (t' ++ w'), y, rfl, ⟨[], c :: t', w', rfl, blank_nil, ht, hw'⟩, hy⟩, fun rest => ?_⟩
    rw [List.append_assoc, List.append_assoc, List.append_assoc, skipWhitespace_number hw ht]
    simp only [List.cons_append, List.append_assoc]

theorem rangeTracks_ne_nil (a b : Nat) : rangeTracks a b ≠ [] := by
  intro h
  have hlength := congrArg List.length h
  unfold rangeTracks at hlength
  split at hlength <;> simp at hlength <;> omega

theorem zero_not_mem_rangeTracks {a b : Nat} (ha : 1 ≤ a ∧ a ≤ 255) (hb : 1 ≤ b ∧ b ≤ 255) :
    0 ∉ rangeTracks a b := by
  unfold rangeTracks
  split
  · refine zero_not_mem_map fun m hm => ?_
    rw [List.mem_range'_1] at hm
    omega
  · rw [List.mem_reverse]
    refine zero_not_mem_map fun m hm => ?_
    rw [List.mem_range'_1] at hm
    omega

theorem Item.tracks_ne_nil (item : Item) : item.tracks ≠ [] := by
  cases item with
  | single n => exact List.cons_ne_nil _ _
  | range a b => exact rangeTracks_ne_nil a b

theorem zero_not_mem_tracks (h : item.Valid maxTrack) : 0 ∉ item.tracks := by
  have hlt := maxTrack.toNat_lt
  cases item with
  | single n =>
    have hone : 0 ∉ [n].map UInt8.ofNat := zero_not_mem_map fun m hm => by
      rw [List.mem_singleton.1 hm]
      exact ⟨h.1, h.2.trans (by omega)⟩
    exact hone
  | range a b =>
    exact zero_not_mem_rangeTracks ⟨h.1.1, h.1.2.trans (by omega)⟩ ⟨h.2.1, h.2.2.trans (by omega)⟩

/-- A string that lists items is read to its end. -/
theorem parseItems_listed {p : Bytes} (h : Listed items p)
    (hvalid : ∀ item ∈ items, item.Valid maxTrack) {n : Nat} (hn : p.length < n)
    {sel : TrackSelection} {added : List UInt8} (hsel : Holds sel added) :
    ∃ sel', parseItems maxTrack n p sel = (.ok (), sel') ∧
      Holds sel' (added ++ items.flatMap Item.tracks) := by
  induction h generalizing n sel added with
  | blank h =>
    obtain ⟨n, rfl⟩ : ∃ k, n = k + 1 := ⟨n - 1, by omega⟩
    refine ⟨sel, ?_, by rwa [List.flatMap_nil, List.append_nil]⟩
    rw [parseItems, if_pos (skipWhitespace_eq_nil.2 h)]
    rfl
  | @last item s h =>
    obtain ⟨n, rfl⟩ : ∃ k, n = k + 1 := ⟨n - 1, by omega⟩
    obtain ⟨c, s', hdigit, hspells, hskip⟩ := h.skip
    have hs : skipWhitespace s = c :: s' := by
      have hnil := hskip []
      rwa [List.append_nil, List.append_nil] at hnil
    have hitem := parseItem_append hspells (hvalid item List.mem_cons_self) (.inl rfl)
    rw [List.append_nil] at hitem
    obtain ⟨sel', hadd, hholds⟩ :=
      addEach_holds hsel (zero_not_mem_tracks (hvalid item List.mem_cons_self))
    refine ⟨sel', ?_, by rwa [List.flatMap_cons, List.flatMap_nil, List.append_nil]⟩
    rw [parseItems, hs, if_neg (List.cons_ne_nil c s'), hitem]
    exact bind_of_ok hadd
  | @cons item items s rest h hrest ih =>
    obtain ⟨n, rfl⟩ : ∃ k, n = k + 1 := ⟨n - 1, by omega⟩
    obtain ⟨c, s', hdigit, hspells, hskip⟩ := h.skip
    have hitem := parseItem_append hspells (hvalid item List.mem_cons_self) (.inr ⟨rest, rfl⟩)
    obtain ⟨sel', hadd, hholds⟩ :=
      addEach_holds hsel (zero_not_mem_tracks (hvalid item List.mem_cons_self))
    rw [List.length_append, List.length_cons] at hn
    obtain ⟨sel'', hparse, hall⟩ :=
      ih (fun i hi => hvalid i (List.mem_cons_of_mem _ hi)) (n := n) (by omega) hholds
    refine ⟨sel'', ?_, by rwa [List.flatMap_cons, ← List.append_assoc]⟩
    rw [parseItems, hskip, if_neg (List.append_ne_nil_of_left_ne_nil (List.cons_ne_nil c s') _),
      hitem]
    simp only [if_true]
    rw [bind_of_ok hadd]
    exact hparse

/-- What is read of a string are items it begins with, and all of it where nothing fails. -/
theorem parseItems_reads {n : Nat} {p : Bytes} (hn : p.length < n) (hfit : NumbersFit p)
    {sel : TrackSelection} {added : List UInt8} (hsel : Holds sel added) :
    ∃ items, (∀ item ∈ items, item.Valid maxTrack) ∧
      Holds (parseItems maxTrack n p sel).2 (added ++ items.flatMap Item.tracks) ∧
      Begins items p ∧ ((parseItems maxTrack n p sel).1 = .ok () → Listed items p) := by
  induction n generalizing p sel added with
  | zero => exact absurd hn (Nat.not_lt_zero _)
  | succ n ih =>
    have hstop : ∀ item ∈ ([] : List Item), item.Valid maxTrack :=
      fun item hitem => absurd hitem List.not_mem_nil
    obtain ⟨w, hw, hp, -⟩ := skipWhitespace_split p
    rw [parseItems]
    split
    · next hblank =>
      exact ⟨[], hstop, by rwa [List.flatMap_nil, List.append_nil], .nil p,
        fun _ => .blank (skipWhitespace_eq_nil.1 hblank)⟩
    · cases hitem : parseItem maxTrack (skipWhitespace p) with
      | error e =>
        refine ⟨[], hstop, by rwa [List.flatMap_nil, List.append_nil], .nil p, fun hok => ?_⟩
        cases hok
      | ok parsed =>
        obtain ⟨tracks, rest⟩ := parsed
        have hfit' : NumbersFit (skipWhitespace p) := (hp ▸ hfit).suffix
        obtain ⟨item, s, w', hs, hspells, hw', hvalid, rfl, hdigit⟩ := parseItem_eq_ok hfit' hitem
        obtain ⟨sel', hadd, hholds⟩ := addEach_holds hsel (zero_not_mem_tracks hvalid)
        have hspells' : item.Spells (w ++ s) := hspells.blank_append hw
        have hspaced : item.Spells (w ++ s ++ w') := hspells'.append_blank hw'
        have hone : ∀ i ∈ [item], i.Valid maxTrack := fun i hi => by
          rwa [List.mem_singleton.1 hi]
        have hadded : Holds sel' (added ++ [item].flatMap Item.tracks) := by
          rwa [List.flatMap_cons, List.flatMap_nil, List.append_nil]
        rw [hs, ← List.append_assoc] at hp
        have hbegins : Begins [item] p := hp ▸ .last hspells' hdigit
        rw [← List.append_assoc] at hp
        simp only []
        rw [bind_of_ok hadd]
        cases rest with
        | nil =>
          rw [List.append_nil] at hp
          exact ⟨[item], hone, hadded, hbegins, fun _ => hp ▸ .last hspaced⟩
        | cons c rest =>
          simp only []
          split
          · next hcomma =>
            rw [hcomma] at hp
            have hlength := congrArg List.length hp
            rw [List.length_append, List.length_cons] at hlength
            have hfit'' : NumbersFit rest := by
              have hwhole : NumbersFit (w ++ s ++ w' ++ [comma] ++ rest) := by
                rw [List.append_assoc]
                exact hp ▸ hfit
              exact hwhole.suffix
            obtain ⟨items, hitems, hall, hbegins', hlisted⟩ := ih (by omega) hfit'' hholds
            refine ⟨item :: items, fun i hi => ?_, ?_, hp ▸ .cons hspaced hbegins',
              fun hok => hp ▸ .cons hspaced (hlisted hok)⟩
            · rcases List.mem_cons.1 hi with rfl | hi
              · exact hvalid
              · exact hitems i hi
            · rwa [List.flatMap_cons, ← List.append_assoc]
          · refine ⟨[item], hone, hadded, hbegins, fun hok => ?_⟩
            cases hok

end List

/-! ## The whole string -/

section Whole

variable {maxTrack : UInt8} {items : List Item} {str : Bytes}

theorem isAll_iff : isAll (skipWhitespace str) = true ↔ SpellsAll str := by
  have hlength : (ascii "all").length = 3 := rfl
  rw [isAll, Bool.and_eq_true, decide_eq_true_iff, decide_eq_true_iff]
  constructor
  · rintro ⟨htake, hdrop⟩
    obtain ⟨w, hw, hs, -⟩ := skipWhitespace_split str
    refine ⟨w, ascii "all", (skipWhitespace str).drop 3, ?_, hw, rfl, skipWhitespace_eq_nil.1 hdrop⟩
    rw [← htake, List.take_append_drop, ← hs]
  · rintro ⟨w, t, w', rfl, hw, rfl, hw'⟩
    have hskip : skipWhitespace (w ++ (ascii "all" ++ w')) = ascii "all" ++ w' := by
      rw [skipWhitespace_append hw]
      exact skipWhitespace_cons (by decide) _
    rw [hskip, List.take_left' hlength, List.drop_left' hlength]
    exact ⟨rfl, skipWhitespace_eq_nil.2 hw'⟩

/-- White space in front does not matter. -/
theorem Listed.skip (h : Listed items str) : Listed items (skipWhitespace str) := by
  cases h with
  | blank hblank =>
    rw [skipWhitespace_eq_nil.2 hblank]
    exact .blank blank_nil
  | last hspells =>
    obtain ⟨c, s', hdigit, hspells', hskip⟩ := hspells.skip
    have hnil := hskip []
    rw [List.append_nil, List.append_nil] at hnil
    rw [hnil]
    exact .last hspells'
  | cons hspells hrest =>
    obtain ⟨c, s', hdigit, hspells', hskip⟩ := hspells.skip
    rw [hskip]
    exact .cons hspells' hrest

/-- The word is no list. -/
theorem not_lists_of_all (h : SpellsAll str) : ¬ Lists maxTrack items str := by
  intro hlists
  have hall := isAll_iff.2 h
  rw [isAll, Bool.and_eq_true, decide_eq_true_iff] at hall
  have hdigit : ∃ c s', isDigit c = true ∧ skipWhitespace str = c :: s' := by
    cases hlists.listed with
    | blank hblank => exact absurd rfl hlists.nonempty
    | last hspells =>
      obtain ⟨c, s', hdigit, -, hskip⟩ := hspells.skip
      refine ⟨c, s', hdigit, ?_⟩
      have hnil := hskip []
      rwa [List.append_nil, List.append_nil] at hnil
    | cons hspells hrest =>
      obtain ⟨c, s', hdigit, -, hskip⟩ := hspells.skip
      exact ⟨c, _, hdigit, hskip _⟩
  obtain ⟨c, s', hdigit, hskip⟩ := hdigit
  rw [hskip] at hall
  have hc : c = 0x61 := (List.cons.inj hall.1).1
  rw [hc] at hdigit
  exact absurd hdigit (by decide)

theorem denoted_ne_nil (h : items ≠ []) : denoted items ≠ [] := by
  obtain ⟨item, rest, rfl⟩ := List.exists_cons_of_ne_nil h
  obtain ⟨track, tracks, htracks⟩ := List.exists_cons_of_ne_nil item.tracks_ne_nil
  rw [denoted, List.flatMap_cons, htracks, List.cons_append, List.eraseDups_cons]
  exact List.cons_ne_nil _ _

theorem selectTracksStr_apply (sel : TrackSelection) :
    selectTracksStr (some maxTrack) str sel =
      if isAll (skipWhitespace str) then addEach (countUp maxTrack) sel.clear
      else (parseItems maxTrack ((skipWhitespace str).length + 1) (skipWhitespace str) >>=
        fun _ => requireTracks) sel.clear := by
  show (if isAll (skipWhitespace str) then addEach (countUp maxTrack)
      else (parseItems maxTrack ((skipWhitespace str).length + 1) (skipWhitespace str) >>=
        fun _ => requireTracks)) sel.clear = _
  split <;> rfl

/-- A string that lists tracks there are selects them. -/
theorem select_lists (h : Lists maxTrack items str) (sel : TrackSelection) :
    ∃ sel', selectTracksStr (some maxTrack) str sel = (.ok (), sel') ∧
      sel'.tracks = denoted items := by
  have hall : ¬ isAll (skipWhitespace str) = true :=
    fun hall => not_lists_of_all (isAll_iff.1 hall) h
  obtain ⟨sel', hparse, hholds⟩ :=
    parseItems_listed h.listed.skip h.valid (Nat.lt_succ_self _) (clear_holds sel)
  have htracks : sel'.tracks = denoted items := hholds.tracks
  refine ⟨sel', ?_, htracks⟩
  rw [selectTracksStr_apply, if_neg hall, bind_of_ok hparse]
  refine if_neg ?_
  rw [htracks]
  exact denoted_ne_nil h.nonempty

/-- What a string that is not the word selects. -/
theorem select_reads (hall : ¬ SpellsAll str) (hfit : NumbersFit str) (sel : TrackSelection) :
    ∃ items, Begins items str ∧ (∀ item ∈ items, item.Valid maxTrack) ∧
      (selectTracksStr (some maxTrack) str sel).2.tracks = denoted items ∧
      ((selectTracksStr (some maxTrack) str sel).1 = .ok () → Lists maxTrack items str) := by
  obtain ⟨w, hw, hs, -⟩ := skipWhitespace_split str
  have hfit' : NumbersFit (skipWhitespace str) := (hs ▸ hfit).suffix
  obtain ⟨items, hvalid, hholds, hbegins, hlisted⟩ :=
    @parseItems_reads maxTrack _ _ (Nat.lt_succ_self _) hfit' _ _ (clear_holds sel)
  have hbegins' : Begins items str := hs ▸ hbegins.blank_append hw
  rw [selectTracksStr_apply, if_neg (fun h => hall (isAll_iff.1 h))]
  rcases hparse : parseItems maxTrack ((skipWhitespace str).length + 1) (skipWhitespace str)
    sel.clear with ⟨e | ⟨⟩, sel'⟩
  · rw [hparse] at hholds
    rw [bind_of_error hparse]
    refine ⟨items, hbegins', hvalid, hholds.tracks, fun hok => ?_⟩
    cases hok
  · rw [hparse] at hholds hlisted
    have htracks : sel'.tracks = denoted items := hholds.tracks
    rw [bind_of_ok hparse]
    unfold requireTracks
    split
    · refine ⟨items, hbegins', hvalid, htracks, fun hok => ?_⟩
      cases hok
    · next hsome =>
      refine ⟨items, hbegins', hvalid, htracks, fun _ => ⟨?_, ?_, hvalid⟩⟩
      · rintro rfl
        exact hsome htracks
      · exact hs ▸ (hlisted rfl).blank_append hw

/-- A string without overlong numbers selects what it says, unless it says all of 255 tracks. -/
theorem selectTracksStr_selects (sel : TrackSelection) (hfit : NumbersFit str)
    (hmost : maxTrack = 255 → ¬ SpellsAll str) :
    Selects maxTrack str (selectTracksStr (some maxTrack) str sel).1
      (selectTracksStr (some maxTrack) str sel).2 := by
  by_cases hall : SpellsAll str
  · obtain ⟨sel', hadd, htracks⟩ := addEach_countUp sel fun hmax => hmost hmax hall
    have hselect : selectTracksStr (some maxTrack) str sel = (.ok (), sel') := by
      rw [selectTracksStr_apply, if_pos (isAll_iff.2 hall), hadd]
    rw [hselect]
    exact ⟨⟨fun _ => .inl hall, fun _ => rfl⟩, fun _ => htracks,
      fun items hitems => absurd hitems (not_lists_of_all hall), fun herror => absurd rfl herror⟩
  · obtain ⟨items, hbegins, hvalid, htracks, hlists⟩ := @select_reads maxTrack _ hall hfit sel
    refine ⟨⟨fun hok => .inr ⟨items, hlists hok⟩, fun hsaid => ?_⟩, fun h => absurd h hall,
      fun items' hitems' => ?_, fun _ => ⟨items, hbegins, hvalid, htracks⟩⟩
    · obtain ⟨items', hitems'⟩ := hsaid.resolve_left hall
      obtain ⟨sel', hselect, -⟩ := select_lists hitems' sel
      rw [hselect]
    · obtain ⟨sel', hselect, htracks'⟩ := select_lists hitems' sel
      rw [hselect]
      exact htracks'

/-- Nine digits fit. -/
theorem numbersFit_of_length_lt {s : Bytes} (h : s.length < 10) : NumbersFit s := by
  intro before digits after hs hdigits
  have hbound : ∀ ds : Bytes, (∀ c ∈ ds, isDigit c = true) → ∀ n,
      ds.foldl (fun n c => n * 10 + (c.toNat - 0x30)) n < (n + 1) * 10 ^ ds.length := by
    intro ds hds
    induction ds with
    | nil =>
      intro n
      simp
    | cons c ds ih =>
      intro n
      have hdigit := hds c List.mem_cons_self
      rw [isDigit, Bool.and_eq_true, decide_eq_true_iff, decide_eq_true_iff,
        UInt8.le_iff_toNat_le, UInt8.le_iff_toNat_le] at hdigit
      have hnine : (0x39 : UInt8).toNat = 57 := rfl
      have hrest := ih (fun d hd => hds d (List.mem_cons_of_mem c hd)) (n * 10 + (c.toNat - 0x30))
      rw [List.foldl_cons, List.length_cons, Nat.pow_succ]
      refine hrest.trans_le ?_
      rw [Nat.mul_comm (10 ^ ds.length) 10, ← Nat.mul_assoc]
      exact Nat.mul_le_mul_right _ (by omega)
  have hlength := congrArg List.length hs
  rw [List.length_append, List.length_append] at hlength
  have hpow : 10 ^ digits.length ≤ 10 ^ 9 := Nat.pow_le_pow_right (by decide) (by omega)
  have hvalue := hbound digits hdigits 0
  rw [Nat.zero_add, Nat.one_mul] at hvalue
  exact (hvalue.trans_le hpow).trans_le (by decide)

/-- A selection of so many tracks. -/
def selected (tracks : List UInt8) : TrackSelection where
  tracks := tracks
  capacity := 16
  currentIdx := 0
  capacity_pos := by decide
  capacity_le := by decide

example : (selectTracksStr (some 3) (ascii "3-1, 2") (selected [7])).2.tracks = [3, 2, 1] := by
  decide

end Whole

end DsdNexus.Dsdpipe.TrackSelect
