import Mathlib.Data.List.Forall2
import DsdNexus.Dsdpipe.PipelineHistory
import DsdNexus.Dsdpipe.PipelineProtocol

/-! # What the sinks of a run are given

When a run succeeds, the frames a sink has been handed in a track follow from the feed of
the track and from the transforms in use, and the format it has been opened with follows
from the transforms the pipe holds. The two agree except in a few configurations.
-/

namespace DsdNexus.Dsdpipe

open Program Run

variable {α β γ ε : Type}

/-! ## Watching the calls -/

/-- What the calls show to someone who watches for some of them. -/
def seen (w : Call α → Option β) (log : List (Call α × Int)) : List β :=
  log.filterMap fun c => w c.1

/-- So far these have been seen. -/
def Saw (w : Call α → Option β) (xs : List β) (s : Run α) : Prop := seen w s.log = xs

/-- Where the program ends with a result, it has shown these. -/
def Shows (w : Call α → Option β) (xs : List β) (m : Program ε (Run α) γ) : Prop :=
  ∀ before, Triple (Saw w before) m (fun _ => Saw w (before ++ xs)) (fun _ _ => True)

namespace Shows

variable {w : Call α → Option β} {xs ys : List β} {m : Program ε (Run α) γ}

theorem bind {δ : Type} {k : γ → Program ε (Run α) δ} (hm : Shows w xs m)
    (hk : ∀ a, Shows w ys (k a)) : Shows w (xs ++ ys) (m >>= k) := fun before => by
  have hrest : ∀ a, Triple (Saw w (before ++ xs)) (k a)
      (fun _ => Saw w (before ++ (xs ++ ys))) (fun _ _ => True) := by
    intro a
    rw [← List.append_assoc]
    exact hk a _
  exact (hm before).bind hrest

/-- A program that makes none of the calls watched for shows nothing. -/
theorem of_calls {D : Call α → Prop} {C : Pipe → Pipe → Prop} (h : Calls D C m)
    (hD : ∀ c, D c → w c = none) : Shows w [] m := by
  intro before
  have hkept : ∀ s, Saw w before s → Saw w before (m s).2 := by
    intro s hs
    obtain ⟨calls, hlog, hcalls⟩ := (h s).log
    have hnone : calls.filterMap (fun c => w c.1) = [] :=
      List.filterMap_eq_nil_iff.2 fun c hc => hD _ (hcalls c hc)
    rw [Saw, hlog, seen, List.filterMap_append, hnone, List.append_nil]
    exact hs
  rw [List.append_nil]
  exact (Triple.of_leaves hkept).conseq (fun _ => id) (fun _ _ => id) fun _ _ _ => trivial

theorem nothing_bind {δ : Type} {k : γ → Program ε (Run α) δ} (hm : Shows w [] m)
    (hk : ∀ a, Shows w ys (k a)) : Shows w ys (m >>= k) := hm.bind hk

theorem bind_nothing {δ : Type} {k : γ → Program ε (Run α) δ} (hm : Shows w xs m)
    (hk : ∀ a, Shows w [] (k a)) : Shows w xs (m >>= k) := by
  have h := hm.bind hk
  rwa [List.append_nil] at h

theorem record {c : Call α} {status : Int} :
    Shows w (w c).toList (record c status : Program ε (Run α) Unit) := fun before =>
  record_triple fun s hs => by
    have hlast : seen w [(c, status)] = (w c).toList := by
      cases hc : w c with
      | none => simp [seen, hc]
      | some x => simp [seen, hc]
    rw [Saw, Run.logged_log, seen, List.filterMap_append]
    exact congrArg₂ (· ++ ·) hs hlast

theorem demand (c : Call α) (status : Int) (exit : Int → ε) :
    Shows w (w c).toList (demand c status exit) :=
  record.bind_nothing fun _ _ =>
    .require (fun s hs _ => by rwa [List.append_nil]) fun _ _ _ => trivial

theorem record_nothing {c : Call α} {status : Int} (h : w c = none) :
    Shows w [] (Dsdpipe.record c status : Program ε (Run α) Unit) := by
  have hrecord : Shows w (w c).toList (Dsdpipe.record c status : Program ε (Run α) Unit) := .record
  rwa [h] at hrecord

theorem record_some {c : Call α} {status : Int} {x : β} (h : w c = some x) :
    Shows w [x] (Dsdpipe.record c status : Program ε (Run α) Unit) := by
  have hrecord : Shows w (w c).toList (Dsdpipe.record c status : Program ε (Run α) Unit) := .record
  rwa [h] at hrecord

theorem demand_nothing {c : Call α} {status : Int} {exit : Int → ε} (h : w c = none) :
    Shows w [] (Dsdpipe.demand c status exit) := by
  have hdemand := Shows.demand (w := w) c status exit
  rwa [h] at hdemand

theorem demand_some {c : Call α} {status : Int} {exit : Int → ε} {x : β} (h : w c = some x) :
    Shows w [x] (Dsdpipe.demand c status exit) := by
  have hdemand := Shows.demand (w := w) c status exit
  rwa [h] at hdemand

theorem pure {a : γ} : Shows w [] (Pure.pure a : Program ε (Run α) γ) := fun before =>
  .pure fun s hs => by rwa [List.append_nil]

theorem setPipe {f : Pipe → Pipe} :
    Shows w [] (setPipe f : Program ε (Run α) Unit) := fun before =>
  setPipe_triple fun s hs => by rwa [List.append_nil]

theorem when {p : Prop} [Decidable p] {m : Program ε (Run α) Unit} (h : p → Shows w xs m) :
    Shows w (if p then xs else []) (Program.when p m) := by
  intro before
  by_cases hp : p
  · rw [when_of hp, if_pos hp]
    exact h hp before
  · rw [when_of_not hp, if_neg hp, List.append_nil]
    exact .pure fun _ hs => hs

theorem when_nothing {p : Prop} [Decidable p] {m : Program ε (Run α) Unit}
    (h : Shows w [] m) : Shows w [] (Program.when p m) := by
  have hwhen := Shows.when (p := p) fun _ => h
  rwa [ite_self] at hwhen

theorem require {p : Prop} [Decidable p] {code : ε} :
    Shows w [] (Program.require p code : Program ε (Run α) Unit) := fun _ =>
  .require (fun s hs _ => by rwa [List.append_nil]) fun _ _ _ => trivial

theorem fail {code : ε} : Shows w xs (fail code : Program ε (Run α) γ) := fun _ =>
  .fail fun _ _ => trivial

theorem forM {δ : Type} {l : List δ} {f : δ → Program ε (Run α) Unit} {g : δ → List β}
    (h : ∀ x ∈ l, Shows w (g x) (f x)) : Shows w (l.flatMap g) (l.forM f) := by
  induction l with
  | nil =>
    intro before
    rw [List.flatMap_nil, List.append_nil]
    exact .pure fun _ hs => hs
  | cons x l ih =>
    rw [List.flatMap_cons]
    exact (h x (.head _)).bind fun _ => ih fun y hy => h y (.tail _ hy)

/-- A loop shows what its elements show. -/
theorem forEach {δ : Type} {l : List δ} {f : δ → Nat → Program ε (Run α) Unit} {g : δ → List β}
    (h : ∀ x i, Shows w (g x) (f x i)) : Shows w (l.flatMap g) (Program.forEach l f) := by
  have hloop : Shows w (l.zipIdx.flatMap fun x => g x.1) (l.zipIdx.forM fun x => f x.1 x.2) :=
    .forM fun x _ => h x.1 x.2
  rwa [← List.flatMap_map, List.zipIdx_map_fst] at hloop

theorem forEach_nothing {δ : Type} {l : List δ} {f : δ → Nat → Program ε (Run α) Unit}
    (h : ∀ x i, Shows w [] (f x i)) : Shows w [] (Program.forEach l f) := by
  have hloop := Shows.forEach (l := l) (g := fun _ => []) h
  rwa [List.flatMap_eq_nil_iff.2 fun _ _ => rfl] at hloop

/-- Only the element in this place shows anything. -/
theorem forEach_at {δ : Type} {l : List δ} {f : δ → Nat → Program ε (Run α) Unit} {i : Nat}
    {x : δ} (hx : l[i]? = some x) (h : Shows w xs (f x i))
    (hother : ∀ y j, j ≠ i → Shows w [] (f y j)) :
    Shows w xs (Program.forEach l f) := by
  intro before
  have hloop := Triple.forEach (l := l) (f := f) (E := fun (_ : ε) (_ : Run α) => True)
    (fun m => Saw w (before ++ if i < m then xs else [])) fun j y hj => by
      by_cases hij : j = i
      · subst hij
        rw [hx] at hj
        cases hj
        simpa only [Nat.lt_irrefl, Nat.lt_succ_self, if_true, if_false, List.append_nil]
          using h before
      · have hsame : i < j + 1 ↔ i < j := by omega
        simpa only [hsame, List.append_nil] using hother y j hij _
  have hi : i < l.length := (List.getElem?_eq_some_iff.1 hx).1
  simpa only [hi, Nat.not_lt_zero, if_true, if_false, List.append_nil] using hloop

/-- The program ends with this result only. -/
theorem bind_result {δ : Type} {a : γ} {k : γ → Program ε (Run α) δ} (hm : Shows w xs m)
    (ha : ∀ {s b t}, m s = (.ok b, t) → b = a) (hk : Shows w ys (k a)) :
    Shows w (xs ++ ys) (m >>= k) := by
  intro before
  have hm' : Triple (Saw w before) m (fun b s => b = a ∧ Saw w (before ++ xs) s)
      (fun _ _ => True) := ⟨fun hs hb => ⟨ha hb, (hm before).ok hs hb⟩, fun _ _ => trivial⟩
  refine hm'.bind fun b => ?_
  by_cases hb : b = a
  · subst hb
    rw [← List.append_assoc]
    exact (hk _).weaken fun s hs => hs.2
  · exact ⟨fun hs _ => absurd hs.1 hb, fun _ _ => trivial⟩

end Shows

/-! ## A batch -/

/-- The buffer a call hands to a sink in a track. -/
def Call.frameTo (i k : Nat) : Call α → Option (Buffer α)
  | .writeFrame i' k' _ _ buffer => if i' = i ∧ k' = k then some buffer else none
  | _ => none

/-- The buffers a sink takes. -/
def Sink.taken (sink : Sink) (buffers : List (Buffer α)) : List (Buffer α) :=
  buffers.filter fun buffer => sink.caps.accepts buffer.format.type

/-- What the decoder in use makes of a batch. -/
def Pipe.outputs (p : Pipe) (buffers : List (Buffer α)) : List (Buffer α) :=
  match p.decoderInUse with
  | none => buffers
  | some decoder => decodedBuffers decoder buffers

/-- What the converter in use makes of a batch. -/
def Pipe.conversions (p : Pipe) (buffers : List (Buffer α)) : List (Buffer α) :=
  match p.converterInUse with
  | none => []
  | some converter => convertedBuffers converter (p.outputs buffers)

/-- What the sink is handed of a batch. -/
def Pipe.handed (p : Pipe) (sink : Sink) (buffers : List (Buffer α)) : List (Buffer α) :=
  (if p.needsDsd = true then sink.taken (p.outputs buffers) else []) ++
    sink.taken (p.conversions buffers)

section Batch

variable {e : Env α} {p : Pipe} {sink : Sink} {i k b j : Nat} {buffers : List (Buffer α)}

theorem frameTo_elsewhere {c : Call α} (h : c.place ≠ .batch k) : c.frameTo i k = none := by
  cases c with
  | writeFrame i' k' b j buffer =>
    refine if_neg fun heq => h ?_
    rw [← heq.2]
    rfl
  | _ => rfl

theorem taken_singleton (sink : Sink) (buffer : Buffer α) :
    sink.taken [buffer] =
      if sink.caps.accepts buffer.format.type = true then [buffer] else [] := by
  simp only [Sink.taken, List.filter_cons, List.filter_nil]

theorem taken_eq_flatMap (sink : Sink) (buffers : List (Buffer α)) :
    buffers.flatMap (fun buffer => sink.taken [buffer]) = sink.taken buffers := by
  induction buffers with
  | nil => rfl
  | cons buffer buffers ih =>
    rw [List.flatMap_cons, ih]
    exact (List.filter_append [buffer] buffers).symm

theorem writeToSinks_shows {buffer : Buffer α} (hsink : p.sinks[i]? = some sink) :
    Shows (Call.frameTo i k) (sink.taken [buffer]) (writeToSinks e p k b buffer j) := by
  refine .forEach_at hsink ?_ fun other l hl => ?_
  · rw [taken_singleton]
    refine .when fun _ => ?_
    let c := Call.writeFrame i k b j buffer
    have hwrite := Shows.demand (w := Call.frameTo i k) c (e.answer c)
      fun _ => Exit.cleanup errorWrite
    rwa [Call.frameTo, if_pos ⟨rfl, rfl⟩] at hwrite
  · let c := Call.writeFrame l k b j buffer
    have hwrite := Shows.demand (w := Call.frameTo i k) c (e.answer c)
      fun _ => Exit.cleanup errorWrite
    rw [Call.frameTo, if_neg fun h => hl h.1] at hwrite
    exact .when_nothing hwrite

theorem writeBuffers_shows (hsink : p.sinks[i]? = some sink) :
    Shows (Call.frameTo i k) (sink.taken buffers) (forEach buffers (writeToSinks e p k b)) := by
  rw [← taken_eq_flatMap]
  exact .forEach fun _ _ => writeToSinks_shows hsink

theorem decodeBatch_shows : Shows (Call.frameTo i k) [] (decodeBatch e p k b buffers) := by
  unfold decodeBatch
  cases p.decoderInUse with
  | none => exact .pure
  | some decoder =>
    refine Shows.nothing_bind (.forEach_nothing fun _ _ => .demand_nothing rfl) fun _ => ?_
    exact Shows.nothing_bind (.demand_nothing rfl) fun _ => .pure

theorem decodeBatch_result {s t : Run α} {outputs : List (Buffer α)}
    (h : decodeBatch e p k b buffers s = (.ok outputs, t)) : outputs = p.outputs buffers := by
  unfold decodeBatch at h
  unfold Pipe.outputs
  cases hdecoder : p.decoderInUse with
  | none =>
    rw [hdecoder] at h
    cases h
    rfl
  | some decoder =>
    rw [hdecoder] at h
    obtain ⟨_, _, _, h⟩ := bind_eq_ok h
    obtain ⟨_, _, _, h⟩ := bind_eq_ok h
    cases h
    rfl

theorem convertBatch_shows (hsink : p.sinks[i]? = some sink) :
    Shows (Call.frameTo i k) (sink.taken (p.conversions buffers))
      (convertBatch e p k b (p.outputs buffers)) := by
  unfold convertBatch Pipe.conversions
  cases p.converterInUse with
  | none => exact .pure
  | some converter =>
    refine Shows.nothing_bind (.forEach_nothing fun _ _ => .demand_nothing rfl) fun _ => ?_
    exact Shows.nothing_bind (.demand_nothing rfl) fun _ => writeBuffers_shows hsink

theorem processBatch_shows (hsink : p.sinks[i]? = some sink) :
    Shows (Call.frameTo i k) (p.handed sink buffers) (processBatch e p k b buffers) := by
  have hreport : Shows (Call.frameTo i k) [] (reportProgress e k b) :=
    Shows.nothing_bind .record fun _ =>
      .when_nothing (Shows.nothing_bind .setPipe fun _ => .fail)
  refine (decodeBatch_shows.bind_result decodeBatch_result ?_ :
    Shows (Call.frameTo i k) ([] ++ p.handed sink buffers) _)
  refine Shows.bind (.when fun _ => writeBuffers_shows hsink) fun _ => ?_
  exact (convertBatch_shows hsink).bind_nothing fun _ => hreport

end Batch

/-! ## A track -/

/-- The batches of a track. -/
def Pipe.batches (p : Pipe) : Feed α → List (List (Buffer α))
  | .batch first others rest => p.sourceBuffers (first :: others) :: p.batches rest
  | .lastBatch first others => [p.sourceBuffers (first :: others)]
  | .endBatch frames => [p.sourceBuffers frames ++ [endMark]]
  | .ended _ | .refused _ => []

section Track

variable {e : Env α} {p : Pipe} {sink : Sink} {i k l b track : Nat}

theorem batchLoop_shows (hsink : p.sinks[i]? = some sink) {feed : Feed α} :
    Shows (Call.frameTo i k) ((p.batches feed).flatMap (p.handed sink))
      (batchLoop e p k b feed) := by
  have hturn : ∀ b, Shows (Call.frameTo i k) [] (pollTurn e k b) := fun b =>
    (Shows.of_calls (D := fun _ => False) calls_poll nofun).nothing_bind fun _ => .require
  induction feed generalizing b with
  | batch first others rest ih =>
    rw [Pipe.batches, List.flatMap_cons]
    exact (hturn b).nothing_bind fun _ => (processBatch_shows hsink).bind fun _ => ih
  | lastBatch first others =>
    rw [Pipe.batches, List.flatMap_singleton]
    exact (hturn b).nothing_bind fun _ => processBatch_shows hsink
  | endBatch frames =>
    rw [Pipe.batches, List.flatMap_singleton]
    exact (hturn b).nothing_bind fun _ => processBatch_shows hsink
  | ended status => exact (hturn b).nothing_bind fun _ => .demand_nothing rfl
  | refused status => exact (hturn b).nothing_bind fun _ => .demand_nothing rfl

/-- The frames have been seen, or the run is cancelled. -/
def Held (w : Call α → Option β) (xs : List β) (s : Run α) : Prop :=
  s.pipe.cancelled = true ∨ Saw w xs s

theorem cleanup_held {w : Call α → Option β} {xs zs : List β} {result : Int}
    (hends : Shows w zs (forEach p.sinks (endSink e k track))) :
    Triple (fun s => result = ok → Held w xs s) (cleanup e p k track result)
      (fun _ => Saw w (xs ++ zs)) (fun _ _ => True) := by
  have hpoll : ∀ at' ys, Triple (Held w ys) (poll e at')
      (fun flag s => s.pipe.cancelled = flag ∧ Held w ys s) (fun (_ : Int) _ => True) := by
    refine fun at' ys => poll_triple fun s flag hs hflag => ⟨rfl, ?_⟩
    rcases hs with hcancelled | hs
    · exact .inl (by simp [hflag, hcancelled])
    · exact .inr hs
  have hend : Triple (Held w xs) (forEach p.sinks (endSink e k track))
      (fun _ => Held w (xs ++ zs)) (fun _ _ => True) := by
    refine .of_forall fun s hs => ?_
    have hquiet : Unnoticed (forEach p.sinks (endSink e k track)) :=
      .forEach fun _ _ => endSink_unnoticed
    obtain ⟨t, ht, _, hcancelled⟩ := hquiet s
    refine .inl ⟨(), t, ht, ?_⟩
    rcases hs with hs | hs
    · exact .inl (hcancelled.trans hs)
    · exact .inr ((hends xs).ok hs ht)
  by_cases hresult : result = ok
  · have hpre : ∀ s, (result = ok → Held w xs s) → Held w xs s := fun s hs => hs hresult
    refine ((hpoll _ _).weaken hpre).bind fun _ => (hend.weaken fun s hs => hs.2).bind fun _ =>
      (hpoll _ _).bind fun flag => .requireThen (fun hflag => .require (fun s hs _ => ?_) ?_) ?_
    · exact hs.2.resolve_left fun hup => by rw [hs.1, hflag] at hup; cases hup
    · exact fun _ _ _ => trivial
    · exact fun _ _ _ => trivial
  · have hany : ∀ {δ : Type} {m : Program Int (Run α) δ} {P : Run α → Prop},
        Triple P m (fun _ _ => True) (fun _ _ => True) := ⟨fun _ _ => trivial, fun _ _ => trivial⟩
    refine hany.bind fun _ => hany.bind fun _ => hany.bind fun _ => hany.bind fun _ => ?_
    exact .require (fun s _ hok => absurd hok hresult) fun _ _ _ => trivial

/-- A track that ends well shows what its beginning, its batches and its end show. -/
theorem processTrack_shows {w : Call α → Option β}
    (hquiet : ∀ c, c.place = .track k → c.sink = none → w c = none) {xs ys zs : List β}
    (hstarts : Shows w xs (forEach p.sinks (startSink e k track)))
    (hbatches : Shows w ys (batchLoop e p k 0 (e.feed k)))
    (hends : Shows w zs (forEach p.sinks (endSink e k track))) (before : List β) :
    Triple (fun s => Fine calm s ∧ Saw w before s) (processTrack e p track k)
      (fun _ => Saw w (before ++ xs ++ ys ++ zs)) (fun _ _ => True) := by
  have hkept : ∀ {us vs : List β} {m : Program Int (Run α) Unit}, Shows w vs m →
      Triple (Fine calm) m (fun _ => Fine calm) Told →
      Triple (fun s => Fine calm s ∧ Saw w us s) m
        (fun _ s => Fine calm s ∧ Saw w (us ++ vs) s) (fun _ _ => True) := fun hshows hfine =>
    (hfine.and (hshows _)).conseq (fun _ => id) (fun _ _ => id) fun _ _ _ => trivial
  have hnothing : ∀ {us : List β} {m : Program Int (Run α) Unit}, Shows w [] m →
      Triple (Fine calm) m (fun _ => Fine calm) Told →
      Triple (fun s => Fine calm s ∧ Saw w us s) m
        (fun _ s => Fine calm s ∧ Saw w us s) (fun _ _ => True) := fun hshows hfine =>
    (hkept hshows hfine).conseq (fun _ => id)
      (fun _ s hs => by rwa [List.append_nil] at hs) fun _ _ => id
  have hignore : ∀ {us : List β} {c : Call α}, c.place = .track k → c.sink = none →
      c.isIgnored = true →
      Triple (fun s => Fine calm s ∧ Saw w us s) (ignore e c)
        (fun _ s => Fine calm s ∧ Saw w us s) (fun (_ : Int) _ => True) :=
    fun hplace hsink hignored => hnothing (.record_nothing (hquiet _ hplace hsink))
      (record_fine (.inl hignored))
  have hattempt : ∀ {us : List β} {c : Call α} {exit : Int → Int}, c.place = .track k →
      c.sink = none → c.isIgnored = false → (∀ status, status ≠ ok → exit status ≠ ok) →
      Triple (fun s => Fine calm s ∧ Saw w us s) (attempt e c exit)
        (fun _ s => Fine calm s ∧ Saw w us s) (fun _ _ => True) :=
    fun hplace hsink hlooked hexit => hnothing (.demand_nothing (hquiet _ hplace hsink))
      (attempt_fine hlooked fun _ _ hst h => told_of_not_clean (hexit _ hst) h)
  have hloop : Triple (fun s => Fine calm s ∧ Saw w (before ++ xs) s)
      (settle ok Exit.settled (batchLoop e p k 0 (e.feed k)))
      (fun result s => result = ok → Held w (before ++ xs ++ ys) s) (fun _ _ => True) := by
    refine ((batchLoop_fine (p := p)).and (hbatches _)).settle ?_ ?_ fun _ _ _ _ _ => trivial
    · exact fun s hs _ => .inr hs.2
    · rintro (code | code) s _ hs ⟨⟩ hok
      exact .inl (hs.1.resolve_left fun h => h.1 hok)
  refine (hignore (by rfl) (by rfl) (by rfl)).bind fun _ => ?_
  refine (hignore (by rfl) (by rfl) (by rfl)).bind fun _ => ?_
  refine (hkept hstarts (.forEach (fun _ => Fine calm) fun _ _ _ => startSink_fine)).bind
    fun _ => ?_
  refine (hattempt (by rfl) (by rfl) (by rfl) (by intros; decide)).bind fun _ => ?_
  refine (hattempt (by rfl) (by rfl) (by rfl) (by intros; decide)).bind fun _ => ?_
  refine (hattempt (by rfl) (by rfl) (by rfl) (by intros; decide)).bind fun _ => ?_
  exact hloop.bind fun result => cleanup_held hends

end Track

/-! ## A run -/

section Whole

variable {e : Env α} {p : Pipe} {sink : Sink} {i k : Nat}

/-- The tracks of a run that ends well show one after the other what each shows. -/
theorem processTracks_show {w : Call α → Option β} {g : Nat → Nat → List β}
    (htrack : ∀ k track before, p.tracks[k]? = some track →
      Triple (fun s => Fine calm s ∧ Saw w before s) (processTrack e p track k)
        (fun _ => Saw w (before ++ g k track)) (fun _ _ => True)) :
    Triple (fun s => Fine calm s ∧ Saw w [] s) (forEach p.tracks (processTrack e p))
      (fun _ => Saw w (p.tracks.mapIdx g).flatten) Told := by
  have hloop := Triple.forEach (l := p.tracks) (f := processTrack e p) (E := Told)
    (fun m s => Fine calm s ∧ Saw w ((p.tracks.mapIdx g).take m).flatten s) fun m track hm => by
      refine (processTrack_fine.and (htrack m track _ hm)).conseq
        (fun s hs => ⟨hs.1, hs⟩) (fun _ s hs => ⟨hs.1, ?_⟩) fun _ _ he => he.1
      have hg : (p.tracks.mapIdx g)[m]? = some (g m track) := by
        rw [List.getElem?_mapIdx, hm]
        rfl
      rw [List.take_add_one, hg, List.flatten_append]
      simpa using hs.2
  refine hloop.conseq (fun s hs => by simpa using hs) (fun _ s hs => ?_) fun _ _ => id
  rw [← List.length_mapIdx (f := g) (l := p.tracks), List.take_length] at hs
  exact hs.2

/-- The finish of a run shows nothing. -/
theorem finish_shows {w : Call α → Option β}
    (hwatch : ∀ c, c.place = .finish → w c = none) :
    Shows w [] (forEach p.sinks fun _ i => finalizeSink e i) ∧
      Shows w [] (forEach p.sinks fun _ i => closeSink e i) :=
  ⟨.of_calls (calls_forEach fun _ _ => calls_finalizeSink) hwatch,
    .of_calls (calls_forEach fun _ _ => calls_closeSink) hwatch⟩

/-- A run shows what its tracks show, if its opening and its finish show nothing. -/
theorem runPrepared_shows {w : Call α → Option β} {xs : List β}
    (hopening : ∀ c, c.place = .opening → w c = none)
    (hfinish : ∀ c, c.place = .finish → w c = none)
    (htracks : Triple (fun s => Fine calm s ∧ Saw w [] s) (forEach p.tracks (processTrack e p))
      (fun _ => Saw w xs) Told) :
    Triple (fun s => Fine anyPipe s ∧ Saw w [] s) (runPrepared e p) (fun _ => Saw w xs)
      (fun _ _ => True) := by
  have hopen : ∀ {m : Program Int (Run α) Unit}, Calls (callsOf .opening) Pipe.Flagged m →
      Triple (Fine anyPipe) m (fun _ => Fine anyPipe) Told →
      Triple (fun s => Fine anyPipe s ∧ Saw w [] s) m
        (fun _ s => Fine anyPipe s ∧ Saw w [] s) (fun _ _ => True) := by
    intro m hcalls hfine
    have hshows : Shows w [] m := .of_calls hcalls hopening
    exact (hfine.and (hshows [])).conseq (fun _ => id) (fun _ _ => id) fun _ _ _ => trivial
  have hstart : Triple (fun (s : Run α) => Fine anyPipe s ∧ Saw w [] s)
      (setPipe fun q => { q with state := .running, cancelled := false })
      (fun _ s => Fine calm s ∧ Saw w [] s) (fun (_ : Int) _ => True) :=
    setPipe_triple fun _ hs => ⟨⟨hs.1.1, rfl⟩, hs.2⟩
  have hsettled : Triple (fun s => Fine calm s ∧ Saw w [] s)
      (settle ok .ok (forEach p.tracks (processTrack e p)))
      (fun result s => result = ok → Saw w xs s) (fun (_ : Int) _ => True) := by
    refine htracks.settle (fun s hs _ => hs) ?_ fun _ _ _ _ _ => trivial
    rintro code s _ hs ⟨⟩ hok
    exact absurd hok hs.1
  obtain ⟨hfinalize, hclose⟩ := finish_shows (e := e) (p := p) hfinish
  have hkept : ∀ {m : Program Int (Run α) Unit} (result : Int), Shows w [] m →
      Triple (fun s => result = ok → Saw w xs s) m
        (fun _ s => result = ok → Saw w xs s) (fun _ _ => True) := by
    intro m result h
    have h' := h xs
    rw [List.append_nil] at h'
    exact h'.imp (result = ok)
  refine (hopen (calls_record (by rfl) _) (record_fine (.inl rfl))).bind fun _ => ?_
  refine (hopen calls_openSinks openSinks_fine).bind fun _ => hstart.bind fun _ => ?_
  refine hsettled.bind fun result => (hkept result hfinalize).bind fun _ =>
    (hkept result hclose).bind fun _ => (hkept result .setPipe).bind fun _ => ?_
  exact .require (fun _ hs hok => hs hok) fun _ _ _ => trivial

theorem flatten_mapIdx_single {δ : Type} {l : List δ} {k : Nat} (hk : k < l.length) (xs : List β) :
    (l.mapIdx fun m _ => if m = k then xs else []).flatten = xs := by
  induction l generalizing k with
  | nil => exact absurd hk (Nat.not_lt_zero k)
  | cons x l ih =>
    rw [List.mapIdx_cons, List.flatten_cons]
    cases k with
    | zero =>
      have hrest : (l.mapIdx fun m _ => if m + 1 = 0 then xs else []).flatten = [] := by
        rw [List.flatten_eq_nil_iff]
        intro ys hys
        obtain ⟨m, hm, rfl⟩ := List.mem_mapIdx.1 hys
        rfl
      rw [hrest, if_pos rfl, List.append_nil]
    | succ k =>
      simp only [Nat.add_right_cancel_iff]
      rw [ih (Nat.lt_of_succ_lt_succ hk), if_neg (Nat.succ_ne_zero k).symm, List.nil_append]

theorem runPrepared_frames (hsink : p.sinks[i]? = some sink) (hk : k < p.tracks.length) :
    Triple (fun s => Fine anyPipe s ∧ Saw (Call.frameTo i k) [] s) (runPrepared e p)
      (fun _ => Saw (Call.frameTo i k) ((p.batches (e.feed k)).flatMap (p.handed sink)))
      (fun _ _ => True) := by
  let xs := (p.batches (e.feed k)).flatMap (p.handed sink)
  have helsewhere : ∀ c : Call α, ∀ place, c.place = place → place ≠ .batch k →
      c.frameTo i k = none := fun c place hc hne => frameTo_elsewhere (hc ▸ hne)
  have htracks : Triple (fun s => Fine calm s ∧ Saw (Call.frameTo i k) [] s)
      (forEach p.tracks (processTrack e p)) (fun _ => Saw (Call.frameTo i k) xs) Told := by
    rw [← flatten_mapIdx_single hk xs]
    refine processTracks_show fun m track before _ => ?_
    have hbatch : Shows (Call.frameTo i k) (if m = k then xs else [])
        (batchLoop e p m 0 (e.feed m)) := by
      by_cases hm : m = k
      · subst hm
        rw [if_pos rfl]
        exact batchLoop_shows hsink
      · rw [if_neg hm]
        exact .of_calls calls_batchLoop fun c hc =>
          helsewhere c _ hc fun h => hm (Place.batch.inj h)
    have hoff : ∀ c : Call α, c.place = .track m → c.frameTo i k = none := fun c hc =>
      helsewhere c _ hc nofun
    have hstarts : Shows (Call.frameTo i k) [] (forEach p.sinks (startSink e m track)) :=
      .of_calls (calls_forEach fun _ _ => calls_startSink) hoff
    have hends : Shows (Call.frameTo i k) [] (forEach p.sinks (endSink e m track)) :=
      .of_calls (calls_forEach fun _ _ => calls_endSink) hoff
    have htrack := processTrack_shows (fun c hc _ => hoff c hc) hstarts hbatch hends before
    simpa only [List.append_nil] using htrack
  exact runPrepared_shows (fun c hc => helsewhere c _ hc nofun)
    (fun c hc => helsewhere c _ hc nofun) htracks

/-- The format a call opens a sink with. -/
def Call.formatTo (i : Nat) : Call α → Option Format
  | .openSink i' format => if i' = i then some format else none
  | _ => none

theorem formatTo_elsewhere {c : Call α} (h : c.place ≠ .opening) : c.formatTo i = none := by
  cases c with
  | openSink i' format => exact absurd rfl h
  | _ => rfl

theorem openSinks_formats (hsink : p.sinks[i]? = some sink) :
    Shows (Call.formatTo i) [p.sinkFormat sink] (openSinks e p) := by
  refine .forEach_at hsink ?_ fun other j hj => ?_
  · refine Shows.nothing_bind (.when_nothing .record) fun _ => ?_
    let c : Call α := .openSink i (p.sinkFormat sink)
    have hopen := Shows.demand (w := Call.formatTo i) c (e.answer c) fun _ => errorSinkOpen
    rw [Call.formatTo, if_pos rfl] at hopen
    exact hopen.bind_nothing fun _ => .setPipe
  · refine Shows.nothing_bind (.when_nothing .record) fun _ => ?_
    exact Shows.nothing_bind (.demand_nothing (if_neg hj)) fun _ => .setPipe

theorem runPrepared_formats (hsink : p.sinks[i]? = some sink) :
    Shows (Call.formatTo i) [p.sinkFormat sink] (runPrepared e p) := by
  have htracks : Shows (ε := Int) (Call.formatTo i) []
      (settle ok .ok (forEach p.tracks (processTrack e p))) := by
    have hcalls : Calls (ε := Int) (fun c => c.place ≠ .opening) Pipe.Flagged
        (settle ok .ok (forEach p.tracks (processTrack e p))) :=
      calls_settle (calls_forEach fun _ _ => calls_processTrack.mono fun c hc h => by
        rw [h] at hc
        exact hc)
    exact .of_calls hcalls fun c => formatTo_elsewhere
  obtain ⟨hfinalize, hclose⟩ := finish_shows (e := e) (p := p) (w := Call.formatTo i)
    fun c hc => formatTo_elsewhere (by rw [hc]; nofun)
  refine Shows.nothing_bind .record fun _ => (openSinks_formats hsink).bind_nothing fun _ => ?_
  refine Shows.nothing_bind .setPipe fun _ => htracks.nothing_bind fun _ => ?_
  exact hfinalize.nothing_bind fun _ => hclose.nothing_bind fun _ =>
    Shows.nothing_bind .setPipe fun _ => .require

/-- What holds where a run ends with a result holds of a run that succeeds. -/
theorem of_status_ok {R : Run α → Prop}
    (h : Triple (fun s => s = (⟨p, []⟩ : Run α)) (dsdpipeRun e) (fun _ => R) (fun _ _ => True))
    (hok : p.status e = ok) : R (dsdpipeRun e ⟨p, []⟩).2 := by
  unfold Pipe.status at hok
  cases hres : dsdpipeRun e ⟨p, []⟩ with
  | mk r s =>
    rw [hres] at hok
    cases r with
    | ok u => exact h.ok rfl hres
    | error code => exact absurd hok (dsdpipeRun_fine.error rfl hres).1

/-- A run has come through its preparation. -/
def Prepared (p : Pipe) (e : Env α) (w : Call α → Option β) (s : Run α) : Prop :=
  PipeIs (p.prepared e) s ∧ Fine anyPipe s ∧ Saw w [] s

theorem prepare_prepared {w : Call α → Option β}
    (hwatch : ∀ c, c.place = .prepare → w c = none) :
    Triple (fun s => s = (⟨p, []⟩ : Run α)) (prepare e) (fun _ => Prepared p e w)
      (fun _ _ => True) := by
  have hshows : Shows w [] (prepare e) := .of_calls calls_prepare hwatch
  have hpipe := prepare_pipe (e := e) (p := p)
  refine ((hpipe.and (prepare_fine (p := p) (e := e))).and (hshows [])).conseq ?_ ?_ ?_
  · rintro s rfl
    exact ⟨⟨rfl, rfl⟩, rfl⟩
  · exact fun _ s hs => ⟨hs.1.1, hs.1.2.1, hs.2⟩
  · exact fun _ _ _ => trivial

/-- What a prepared run shows where it ends with a result, a successful run has shown. -/
theorem shown_of_success {w : Call α → Option β} {xs : List β}
    (hprepare : ∀ c, c.place = .prepare → w c = none)
    (hrun : Triple (fun s => Fine anyPipe s ∧ Saw w [] s) (runPrepared e (p.prepared e))
      (fun _ => Saw w xs) (fun _ _ => True)) (hok : p.status e = ok) :
    seen w (p.calls e) = xs := by
  refine of_status_ok (R := Saw w xs) ?_ hok
  refine (prepare_prepared hprepare).bind fun _ => .inspect fun t ht => ?_
  rw [show t.pipe = _ from ht.1]
  exact hrun.weaken fun s hs => hs ▸ ht.2

theorem frames_of_success (hsink : (p.prepared e).sinks[i]? = some sink)
    (hk : k < (p.selection e).length) (hok : p.status e = ok) :
    seen (Call.frameTo i k) (p.calls e) =
      ((p.prepared e).batches (e.feed k)).flatMap ((p.prepared e).handed sink) :=
  shown_of_success (fun c hc => frameTo_elsewhere (by rw [hc]; nofun))
    (runPrepared_frames hsink hk) hok

theorem formats_of_success (hsink : (p.prepared e).sinks[i]? = some sink)
    (hok : p.status e = ok) :
    seen (Call.formatTo i) (p.calls e) = [(p.prepared e).sinkFormat sink] := by
  refine shown_of_success (fun c hc => formatTo_elsewhere (by rw [hc]; nofun)) ?_ hok
  exact (runPrepared_formats hsink []).weaken fun s hs => hs.2

end Whole

/-! ## What a sink is handed -/

/-- What comes out of the decoder, or the buffer itself. -/
def Pipe.output (p : Pipe) (buffer : Buffer α) : Buffer α :=
  match p.decoderInUse with
  | none => buffer
  | some decoder => ⟨.decoded buffer.payload, decoder.outputFormat⟩

/-- The format of the frames that are handed to the sinks for DSD. -/
def Pipe.frameFormat (p : Pipe) : Format :=
  match p.decoderInUse with
  | none => p.sourceFormat
  | some decoder => decoder.outputFormat

/-- All buffers of a track. -/
def Pipe.trackBuffers (p : Pipe) (feed : Feed α) : List (Buffer α) :=
  p.sourceBuffers feed.frames ++ if feed.endsByReturn = true then [endMark] else []

section Handed

variable {p : Pipe} {sink : Sink}

theorem outputs_eq_map (p : Pipe) (buffers : List (Buffer α)) :
    p.outputs buffers = buffers.map p.output := by
  unfold Pipe.outputs Pipe.output
  cases p.decoderInUse with
  | none => exact (List.map_id' buffers).symm
  | some decoder => rfl

theorem batches_flatten (p : Pipe) (feed : Feed α) :
    (p.batches feed).flatten = p.trackBuffers feed := by
  unfold Pipe.trackBuffers
  induction feed with
  | batch first others rest ih =>
    rw [Pipe.batches, List.flatten_cons, ih, ← List.append_assoc]
    simp only [Feed.frames, Feed.endsByReturn, Pipe.sourceBuffers, List.map_append, List.map_cons,
      List.cons_append]
    rfl
  | lastBatch first others => simp [Pipe.batches, Feed.frames, Feed.endsByReturn]
  | endBatch frames => simp [Pipe.batches, Feed.frames, Feed.endsByReturn]
  | ended status => simp [Pipe.batches, Feed.frames, Feed.endsByReturn, Pipe.sourceBuffers]
  | refused status => simp [Pipe.batches, Feed.frames, Feed.endsByReturn, Pipe.sourceBuffers]

theorem taken_append (sink : Sink) (xs ys : List (Buffer α)) :
    sink.taken (xs ++ ys) = sink.taken xs ++ sink.taken ys := List.filter_append xs ys

theorem taken_all {buffers : List (Buffer α)}
    (h : ∀ buffer ∈ buffers, sink.caps.accepts buffer.format.type = true) :
    sink.taken buffers = buffers := List.filter_eq_self.2 h

theorem taken_none {buffers : List (Buffer α)}
    (h : ∀ buffer ∈ buffers, sink.caps.accepts buffer.format.type = false) :
    sink.taken buffers = [] :=
  List.filter_eq_nil_iff.2 fun buffer hb => by simp [h buffer hb]

/-- What a sink takes of the batches it takes of the whole track. -/
theorem flatMap_taken (sink : Sink) (f : Buffer α → Buffer α) (batches : List (List (Buffer α))) :
    batches.flatMap (fun buffers => sink.taken (buffers.map f)) =
      sink.taken (batches.flatten.map f) := by
  induction batches with
  | nil => rfl
  | cons buffers batches ih =>
    rw [List.flatMap_cons, ih, List.flatten_cons, List.map_append, taken_append]

/-- The format is one of those for PCM. -/
def FormatType.isPcm : FormatType → Bool
  | .pcmInt16 | .pcmInt24 | .pcmInt32 | .pcmFloat32 | .pcmFloat64 => true
  | .unknown | .dsdRaw | .dst => false

theorem accepts_of_isPcm {type : FormatType} (h : type.isPcm = true) (caps : Caps) :
    caps.accepts type = caps.pcm := by
  cases type <;> first | rfl | cases h

theorem pcmFormat_isPcm (useFp64 : Bool) (input : Format) :
    (pcmFormat useFp64 input).type.isPcm = true := by
  cases useFp64 <;> rfl

theorem output_format (p : Pipe) (frame : α) :
    (p.output ⟨.source frame, p.sourceFormat⟩).format = p.frameFormat := by
  unfold Pipe.output Pipe.frameFormat
  cases p.decoderInUse <;> rfl

theorem output_carries (p : Pipe) (frame : α) :
    (p.output ⟨.source frame, p.sourceFormat⟩).payload = .source frame ∨
      (p.output ⟨.source frame, p.sourceFormat⟩).payload = .decoded (.source frame) := by
  unfold Pipe.output
  cases p.decoderInUse with
  | none => exact .inl rfl
  | some decoder => exact .inr rfl

/-- A sink for DSD is handed what comes out of the decoder. -/
theorem track_handed_dsd (hneeds : p.needsDsd = true) (hpcm : sink.caps.pcm = false)
    (hconverter : ∀ converter ∈ p.converterInUse, converter.outputFormat.type.isPcm = true)
    (feed : Feed α) :
    (p.batches feed).flatMap (p.handed sink) =
      sink.taken ((p.trackBuffers feed).map p.output) := by
  rw [← batches_flatten, ← flatMap_taken]
  refine congrArg (List.flatMap · (p.batches feed)) (funext fun buffers => ?_)
  have hnone : sink.taken (p.conversions buffers) = [] := by
    unfold Pipe.conversions
    cases hc : p.converterInUse with
    | none => rfl
    | some converter =>
      refine taken_none fun buffer hb => ?_
      obtain ⟨of, -, rfl⟩ := List.mem_map.1 hb
      rw [accepts_of_isPcm (hconverter converter (by rw [hc]; rfl)), hpcm]
  rw [Pipe.handed, if_pos hneeds, hnone, List.append_nil, outputs_eq_map]

theorem trackBuffer_format {feed : Feed α} {buffer : Buffer α}
    (h : buffer ∈ p.trackBuffers feed) :
    (p.output buffer).format = p.frameFormat ∨ (p.output buffer).format = Format.zero := by
  rcases List.mem_append.1 h with hframe | hmark
  · obtain ⟨frame, -, rfl⟩ := List.mem_map.1 hframe
    exact .inl (output_format p frame)
  · split at hmark
    · rw [List.mem_singleton.1 hmark]
      unfold Pipe.output Pipe.frameFormat
      cases p.decoderInUse with
      | none => exact .inr rfl
      | some decoder => exact .inl rfl
    · cases hmark

/-- A sink for PCM is handed what comes out of the converter. -/
theorem track_handed_pcm (hcaps : ∀ type, sink.caps.accepts type = type.isPcm)
    (hframe : p.frameFormat.type.isPcm = false) {converter : Transform}
    (hconverter : p.converterInUse = some converter)
    (hformat : converter.outputFormat.type.isPcm = true) (feed : Feed α) :
    (p.batches feed).flatMap (p.handed sink) =
      convertedBuffers converter ((p.trackBuffers feed).map p.output) := by
  let convert : Buffer α → Buffer α := fun buffer =>
    ⟨.converted (p.output buffer).payload, converter.outputFormat⟩
  have hmap : ∀ buffers : List (Buffer α),
      convertedBuffers converter (buffers.map p.output) = buffers.map convert := by
    intro buffers
    rw [convertedBuffers, List.map_map]
    rfl
  have hall : ∀ buffers : List (Buffer α),
      sink.taken (buffers.map convert) = buffers.map convert := by
    refine fun buffers => taken_all fun buffer hb => ?_
    obtain ⟨of, -, rfl⟩ := List.mem_map.1 hb
    exact (hcaps _).trans hformat
  rw [hmap, ← batches_flatten, ← hall, ← flatMap_taken]
  refine List.flatMap_congr fun buffers hbuffers => ?_
  have houtputs : sink.taken (p.outputs buffers) = [] := by
    rw [outputs_eq_map]
    refine taken_none fun output houtput => ?_
    obtain ⟨buffer, hbuffer, rfl⟩ := List.mem_map.1 houtput
    have hmem : buffer ∈ p.trackBuffers feed := by
      rw [← batches_flatten]
      exact List.mem_flatten.2 ⟨buffers, hbuffers, hbuffer⟩
    rw [hcaps]
    rcases trackBuffer_format hmem with hf | hf
    · rw [hf, hframe]
    · rw [hf]
      rfl
  have hconversions : p.conversions buffers = buffers.map convert := by
    rw [Pipe.conversions, hconverter, outputs_eq_map]
    exact hmap buffers
  rw [Pipe.handed, houtputs, ite_self, List.nil_append, hconversions]

end Handed

/-! ## Every sink gets the whole track -/

/-- The sink takes audio. -/
def Caps.isAudio (caps : Caps) : Bool := caps.dsd || caps.dst || caps.pcm

/-- The buffer has the frame in it, as it was read, decoded or converted. -/
def Payload.Carries (frame : α) (payload : Payload α) : Prop :=
  payload = .source frame ∨ payload = .decoded (.source frame) ∨
    payload = .converted (.source frame) ∨ payload = .converted (.decoded (.source frame))

/-- A sink has been handed the frames of a track, one by one, in formats that it takes and
that it has been opened with. -/
def Delivered (p : Pipe) (e : Env α) (k i : Nat) (sink : Sink) : Prop :=
  List.Forall₂ (fun frame buffer => buffer.payload.Carries frame ∧
      sink.caps.accepts buffer.format.type = true ∧
      seen (Call.formatTo i) (p.calls e) = [buffer.format])
    (e.feed k).frames (seen (Call.frameTo i k) (p.calls e))

/-- Every sink for audio has been handed every track. -/
def Pipe.DeliversAll (p : Pipe) (e : Env α) : Prop :=
  ∀ k i sink, k < (p.selection e).length → p.sinks[i]? = some sink → sink.caps.isAudio = true →
    Delivered p e k i sink

/-- What goes to the sinks for DSD is in a format they take and are opened with. A DSD
source needs that no decoder for another format is left from an earlier run; a DST source
that is not decoded needs that none of them is without DST. -/
structure Pipe.FramesFit (p : Pipe) : Prop where
  dsd : p.sourceFormat.type = .dsdRaw → p.needsDsd = true →
    ∀ decoder ∈ p.dstDecoder, decoder.outputFormat = p.sourceFormat
  dst : p.sourceFormat.type = .dst → p.canAcceptDst = true →
    (∃ decoder ∈ p.dstDecoder, decoder.isInitialized = true) ∨
      p.dstDecoder = none ∧ ∀ sink ∈ p.sinks, sink.caps.dsd = true → sink.caps.dst = true

/-- The empty buffer of the end-of-track return goes to no sink: it is neither converted nor
decoded for one. -/
structure Pipe.MarksFit (p : Pipe) : Prop where
  pcm : p.needsPcm = false
  dst : p.sourceFormat.type = .dst → p.needsDsd = true →
    p.canAcceptDst = true ∧ ∀ decoder ∈ p.dstDecoder, decoder.isInitialized = false

section Prepared

variable {p : Pipe} {e : Env α} {sink : Sink} {i k : Nat}

theorem prepared_sinks (h : p.Built) : (p.prepared e).sinks = p.sinks := h.refreshCaps

theorem prepared_needs (h : p.Built) :
    (p.prepared e).needsDsd = p.needsDsd ∧ (p.prepared e).needsPcm = p.needsPcm ∧
      (p.prepared e).canAcceptDst = p.canAcceptDst := by
  simp only [Pipe.needsDsd, Pipe.needsPcm, Pipe.canAcceptDst, prepared_sinks h, and_self]

theorem prepared_decoder (h : p.Built) : (p.prepared e).dstDecoder =
    if p.wantsDecoder = true
      then some ⟨true, p.sourceFormat, { p.sourceFormat with type := .dsdRaw }⟩
      else p.dstDecoder := by
  obtain ⟨hdsd, hpcm, hdst⟩ := prepared_needs (e := e) h
  have hwants : (p.prepared e).wantsDecoder = p.wantsDecoder := by
    rw [Pipe.wantsDecoder, hdsd, hpcm, hdst]
    rfl
  rw [← hwants]
  rfl

theorem prepared_converter (h : p.Built) (hpcm : p.needsPcm = true) :
    ∃ converter, (p.prepared e).dsd2pcm = some converter ∧
      (p.prepared e).converterInUse = some converter ∧
      converter.outputFormat.type.isPcm = true := by
  have hneeds := (prepared_needs (e := e) h).2.1.trans hpcm
  let converter : Transform :=
    ⟨true, (p.prepared e).dsdFormat, pcmFormat p.pcmUseFp64 (p.prepared e).dsdFormat⟩
  have hset : (p.prepared e).dsd2pcm = some converter := if_pos hneeds
  refine ⟨converter, hset, ?_, pcmFormat_isPcm _ _⟩
  rw [Pipe.converterInUse, if_pos hneeds, hset]

theorem prepared_converters (h : p.Built) :
    ∀ converter ∈ (p.prepared e).converterInUse, converter.outputFormat.type.isPcm = true := by
  intro converter hc
  by_cases hp : p.needsPcm = true
  · obtain ⟨c, -, hin, hformat⟩ := prepared_converter (e := e) h hp
    rw [hin, Option.mem_some] at hc
    exact hc ▸ hformat
  · rw [Pipe.converterInUse, (prepared_needs h).2.1, if_neg hp] at hc
    cases hc

/-- A list that is matched with a longer one by a relation. -/
theorem forall₂_map_append {δ : Type} {R : α → δ → Prop} {f : α → δ} {xs : List α} {ys : List δ} :
    List.Forall₂ R xs (xs.map f ++ ys) ↔ (∀ x ∈ xs, R x (f x)) ∧ ys = [] := by
  induction xs with
  | nil => cases ys <;> simp
  | cons x xs ih => simp [ih, and_assoc]

/-- The frames of a track as they go to the sinks for DSD. -/
theorem map_trackBuffers (p : Pipe) (feed : Feed α) :
    (p.trackBuffers feed).map p.output =
      feed.frames.map (fun frame => p.output ⟨.source frame, p.sourceFormat⟩) ++
        if feed.endsByReturn = true then [p.output endMark] else [] := by
  rw [Pipe.trackBuffers, List.map_append, Pipe.sourceBuffers, List.map_map]
  split <;> rfl

theorem taken_mark (p : Pipe) (feed : Feed α) (sink : Sink) :
    sink.taken (if feed.endsByReturn = true then [(p.output endMark : Buffer α)] else []) = [] ↔
      (feed.endsByReturn = true →
        p.decoderInUse = none ∨ sink.caps.accepts p.frameFormat.type = false) := by
  cases hend : feed.endsByReturn with
  | false => simp [Sink.taken]
  | true =>
    simp only [if_true, taken_singleton, forall_const, Pipe.output, Pipe.frameFormat]
    cases p.decoderInUse with
    | none => simp [endMark, Format.zero, Caps.accepts]
    | some decoder => simp

theorem delivered_dsd_iff (h : p.Built) (hok : p.status e = ok)
    (hk : k < (p.selection e).length) (hsink : p.sinks[i]? = some sink)
    (hdsd : sink.caps.dsd = true) (hpcm : sink.caps.pcm = false) :
    Delivered p e k i sink ↔
      ((e.feed k).frames ≠ [] →
        sink.caps.accepts (p.prepared e).frameFormat.type = true ∧
          (p.prepared e).sinkFormat sink = (p.prepared e).frameFormat) ∧
      ((e.feed k).endsByReturn = true → (p.prepared e).decoderInUse = none ∨
        sink.caps.accepts (p.prepared e).frameFormat.type = false) := by
  have hsink' : (p.prepared e).sinks[i]? = some sink := by rwa [prepared_sinks h]
  have hneeds : (p.prepared e).needsDsd = true := by
    rw [(prepared_needs h).1]
    exact List.any_eq_true.2 ⟨sink, List.mem_of_getElem? hsink, hdsd⟩
  rw [Delivered, frames_of_success hsink' hk hok, formats_of_success hsink' hok,
    track_handed_dsd hneeds hpcm (prepared_converters h), map_trackBuffers, taken_append,
    ← taken_mark]
  by_cases haccepts : sink.caps.accepts (p.prepared e).frameFormat.type = true
  · rw [taken_all, forall₂_map_append]
    · refine and_congr_left fun _ => ⟨fun hall hne => ⟨haccepts, ?_⟩, fun hfit x hx => ?_⟩
      · obtain ⟨x, hx⟩ := List.exists_mem_of_ne_nil _ hne
        have hformat := (hall x hx).2.2
        rw [output_format, List.singleton_inj] at hformat
        exact hformat
      · refine ⟨(output_carries _ x).imp_right .inl, ?_, ?_⟩
        · rwa [output_format]
        · rw [output_format, (hfit (List.ne_nil_of_mem hx)).2]
    · intro buffer hb
      obtain ⟨frame, -, rfl⟩ := List.mem_map.1 hb
      rwa [output_format]
  · rw [@taken_none _ _ (List.map _ _), List.nil_append]
    · have hmark := (taken_mark (p.prepared e) (e.feed k) sink).2 fun _ =>
        .inr (by simpa using haccepts)
      rw [hmark, List.forall₂_nil_right_iff]
      refine ⟨fun hnil => ⟨fun hne => absurd hnil hne, rfl⟩, fun hfit => ?_⟩
      by_contra hne
      exact haccepts (hfit.1 hne).1
    · intro buffer hb
      obtain ⟨frame, -, rfl⟩ := List.mem_map.1 hb
      rw [output_format]
      simpa using haccepts

theorem delivered_pcm_iff (h : p.Built) (hok : p.status e = ok)
    (hk : k < (p.selection e).length) (hsink : p.sinks[i]? = some sink)
    (hcaps : ∀ type, sink.caps.accepts type = type.isPcm) (hpcm : sink.caps.pcm = true)
    (hneeds : p.needsPcm = true) (hframe : (p.prepared e).frameFormat.type.isPcm = false) :
    Delivered p e k i sink ↔ (e.feed k).endsByReturn = false := by
  have hsink' : (p.prepared e).sinks[i]? = some sink := by rwa [prepared_sinks h]
  obtain ⟨converter, hset, hin, hformat⟩ := prepared_converter (e := e) h hneeds
  have hopened : (p.prepared e).sinkFormat sink = converter.outputFormat := by
    rw [Pipe.sinkFormat, hpcm, hset]
  rw [Delivered, frames_of_success hsink' hk hok, formats_of_success hsink' hok,
    track_handed_pcm hcaps hframe hin hformat, map_trackBuffers, hopened, convertedBuffers,
    List.map_append, List.map_map, forall₂_map_append]
  have hall : ∀ x ∈ (e.feed k).frames, Payload.Carries x
      (.converted ((p.prepared e).output ⟨.source x, (p.prepared e).sourceFormat⟩).payload) :=
    fun x _ => (output_carries (p.prepared e) x).elim (fun h => .inr (.inr (.inl (by rw [h]))))
      fun h => .inr (.inr (.inr (by rw [h])))
  cases hend : (e.feed k).endsByReturn with
  | false =>
    simp only [Bool.false_eq_true, if_false, List.map_nil, and_true, iff_true]
    exact fun x hx => ⟨hall x hx, (hcaps _).trans hformat, rfl⟩
  | true => simp

/-- A sink for audio takes DSD, or PCM and nothing else. -/
theorem capabilities_cases {type : SinkType} {writeDst : Bool}
    (h : (type.getCapabilities writeDst).isAudio = true) :
    (type.getCapabilities writeDst).dsd = true ∧ (type.getCapabilities writeDst).pcm = false ∨
      (type.getCapabilities writeDst).pcm = true ∧ (type.getCapabilities writeDst).dsd = false ∧
        ∀ format : FormatType, (type.getCapabilities writeDst).accepts format = format.isPcm := by
  cases type with
  | dsf | dsdiff | dsdiffEdit => exact .inl ⟨rfl, rfl⟩
  | wav | flac => exact .inr ⟨rfl, rfl, fun format => by cases format <;> rfl⟩
  | print | cue | xml | id3 => cases h

/-- The sinks for DSD take the frames in their format, and are opened with it. -/
def Pipe.FramesAccepted (p : Pipe) : Prop :=
  ∀ sink ∈ p.sinks, sink.caps.dsd = true →
    sink.caps.accepts p.frameFormat.type = true ∧ p.sinkFormat sink = p.frameFormat

/-- No sink is handed the empty buffer of the end-of-track return. -/
def Pipe.MarksRefused (p : Pipe) : Prop :=
  p.needsPcm = false ∧ ∀ sink ∈ p.sinks, sink.caps.dsd = true →
    p.decoderInUse = none ∨ sink.caps.accepts p.frameFormat.type = false

theorem frameFormat_not_pcm (h : p.Built)
    (hsource : p.sourceFormat.type = .dsdRaw ∨ p.sourceFormat.type = .dst) :
    p.frameFormat.type.isPcm = false := by
  unfold Pipe.frameFormat
  cases hin : p.decoderInUse with
  | none => rcases hsource with hs | hs <;> rw [hs] <;> rfl
  | some decoder =>
    have hmem : decoder ∈ p.dstDecoder := by
      rw [Pipe.decoderInUse] at hin
      split at hin
      · exact hin
      · cases hin
    rcases h.decoder decoder hmem with hd | ⟨-, hd⟩
    · rw [hd]
      rfl
    · rw [hd]
      rfl

theorem deliversAll_iff (h : p.Built) (hok : p.status e = ok) :
    p.DeliversAll e ↔
      ((∃ k < (p.selection e).length, (e.feed k).frames ≠ []) → (p.prepared e).FramesAccepted) ∧
      ((∃ k < (p.selection e).length, (e.feed k).endsByReturn = true) →
        (p.prepared e).MarksRefused) := by
  have hsource := h.source ((p.status_ok_iff e).1 hok).1.1
  have hframe : (p.prepared e).frameFormat.type.isPcm = false :=
    frameFormat_not_pcm (h.inherits (prepared_inherits p e)) hsource
  have hcases : ∀ sink ∈ p.sinks, sink.caps.isAudio = true →
      sink.caps.dsd = true ∧ sink.caps.pcm = false ∨
        sink.caps.pcm = true ∧ sink.caps.dsd = false ∧
          ∀ format : FormatType, sink.caps.accepts format = format.isPcm := by
    intro sink hsink haudio
    rw [h.sinks sink hsink] at haudio ⊢
    exact capabilities_cases haudio
  constructor
  · intro hall
    have hdsd : ∀ sink ∈ p.sinks, sink.caps.dsd = true →
        ∃ i : Nat, p.sinks[i]? = some sink ∧ sink.caps.isAudio = true ∧ sink.caps.pcm = false := by
      intro sink hsink hd
      obtain ⟨i, hi⟩ := List.getElem?_of_mem hsink
      have haudio : sink.caps.isAudio = true := by simp [Caps.isAudio, hd]
      refine ⟨i, hi, haudio, ?_⟩
      rcases hcases sink hsink haudio with hc | hc
      · exact hc.2
      · rw [hd] at hc
        cases hc.2.1
    constructor
    · rintro ⟨k, hk, hne⟩ sink hsink hd
      rw [prepared_sinks h] at hsink
      obtain ⟨i, hi, haudio, hpcm⟩ := hdsd sink hsink hd
      exact ((delivered_dsd_iff h hok hk hi hd hpcm).1 (hall k i sink hk hi haudio)).1 hne
    · rintro ⟨k, hk, hend⟩
      refine ⟨?_, fun sink hsink hd => ?_⟩
      · rw [(prepared_needs h).2.1]
        by_contra hneeds
        rw [Bool.not_eq_false] at hneeds
        obtain ⟨sink, hsink, hp⟩ := List.any_eq_true.1 hneeds
        obtain ⟨i, hi⟩ := List.getElem?_of_mem hsink
        rw [Bool.and_eq_true, Bool.not_eq_true'] at hp
        have haudio : sink.caps.isAudio = true := by simp [Caps.isAudio, hp.1]
        rcases hcases sink hsink haudio with hc | hc
        · rw [hp.1] at hc
          cases hc.2
        · have hdone := (delivered_pcm_iff h hok hk hi hc.2.2 hc.1 hneeds hframe).1
            (hall k i sink hk hi haudio)
          rw [hend] at hdone
          cases hdone
      · rw [prepared_sinks h] at hsink
        obtain ⟨i, hi, haudio, hpcm⟩ := hdsd sink hsink hd
        exact ((delivered_dsd_iff h hok hk hi hd hpcm).1 (hall k i sink hk hi haudio)).2 hend
  · rintro ⟨hframes, hmarks⟩ k i sink hk hi haudio
    have hsink := List.mem_of_getElem? hi
    have hsink' : sink ∈ (p.prepared e).sinks := by rwa [prepared_sinks h]
    rcases hcases sink hsink haudio with ⟨hd, hpcm⟩ | ⟨hpcm, hd, hcaps⟩
    · exact (delivered_dsd_iff h hok hk hi hd hpcm).2
        ⟨fun hne => hframes ⟨k, hk, hne⟩ sink hsink' hd,
          fun hend => (hmarks ⟨k, hk, hend⟩).2 sink hsink' hd⟩
    · have hneeds : p.needsPcm = true :=
        List.any_eq_true.2 ⟨sink, hsink, by rw [hpcm, hd]; rfl⟩
      refine (delivered_pcm_iff h hok hk hi hcaps hpcm hneeds hframe).2 ?_
      by_contra hend
      rw [Bool.not_eq_false] at hend
      have hnone := (hmarks ⟨k, hk, hend⟩).1
      rw [(prepared_needs h).2.1, hneeds] at hnone
      cases hnone

theorem needsDsd_of_mem (hsink : sink ∈ p.sinks) (h : sink.caps.dsd = true) :
    p.needsDsd = true := List.any_eq_true.2 ⟨sink, hsink, h⟩

/-- A sink that takes DST takes DSD. -/
theorem needsDsd_of_canAcceptDst (h : p.Built) (hdst : p.canAcceptDst = true) :
    p.needsDsd = true := by
  obtain ⟨sink, hsink, hd⟩ := List.any_eq_true.1 hdst
  refine needsDsd_of_mem hsink ?_
  rw [h.sinks sink hsink] at hd ⊢
  cases htype : sink.type with
  | dsf | dsdiff | dsdiffEdit => rfl
  | wav | flac | print | cue | xml | id3 =>
    rw [htype] at hd
    cases hd

/-- For a source in DSD the decoder is not used, and its output format may be in the way. -/
theorem prepared_dsd (h : p.Built) (hsource : p.sourceFormat.type = .dsdRaw) :
    (p.prepared e).decoderInUse = none ∧ (p.prepared e).dstDecoder = p.dstDecoder := by
  have hwants : p.wantsDecoder = false := by
    rw [Pipe.wantsDecoder, hsource]
    rfl
  constructor
  · refine if_neg ?_
    rw [show (p.prepared e).sourceFormat.type = .dsdRaw from hsource]
    nofun
  · rw [prepared_decoder h, hwants, if_neg nofun]

/-- For a source in DST and sinks that want DSD the decoder is a new one, unless some sink
takes DST. -/
theorem prepared_dst (h : p.Built) (hsource : p.sourceFormat.type = .dst)
    (hneeds : p.needsDsd = true) :
    (p.prepared e).decoderInUse =
      if p.canAcceptDst = true then p.dstDecoder
      else some ⟨true, p.sourceFormat, { p.sourceFormat with type := .dsdRaw }⟩ := by
  have hin : (p.prepared e).decoderInUse = (p.prepared e).dstDecoder :=
    if_pos (show (p.prepared e).sourceFormat.type = .dst from hsource)
  have hwants : p.wantsDecoder = !p.canAcceptDst := by
    rw [Pipe.wantsDecoder, hsource, hneeds]
    rfl
  rw [hin, prepared_decoder h, hwants]
  cases p.canAcceptDst <;> rfl

theorem not_pcm_of_dsd (h : p.Built) (hsink : sink ∈ p.sinks) (hd : sink.caps.dsd = true) :
    sink.caps.pcm = false := by
  rw [h.sinks sink hsink] at hd ⊢
  cases htype : sink.type with
  | dsf | dsdiff | dsdiffEdit | print | cue | xml | id3 => rfl
  | wav | flac =>
    rw [htype] at hd
    cases hd

/-- The format a sink for DSD is opened with. -/
theorem sinkFormat_dsd (hpcm : sink.caps.pcm = false) :
    p.sinkFormat sink = p.dstDecoder.elim p.sourceFormat Transform.outputFormat := by
  unfold Pipe.sinkFormat
  rw [hpcm]
  cases p.dsd2pcm <;> cases p.dstDecoder <;> rfl

theorem frameFormat_eq_elim (p : Pipe) :
    p.frameFormat = p.decoderInUse.elim p.sourceFormat Transform.outputFormat := by
  unfold Pipe.frameFormat
  cases p.decoderInUse <;> rfl

theorem accepts_output (h : p.Built) {decoder : Transform} (hd : decoder ∈ p.dstDecoder)
    (hdsd : sink.caps.dsd = true) :
    sink.caps.accepts decoder.outputFormat.type = decoder.isInitialized := by
  rcases h.decoder decoder hd with hc | ⟨hinit, hout⟩
  · rw [hc]
    rfl
  · rw [hinit, hout]
    exact hdsd

theorem framesAccepted_dsd_iff (h : p.Built) (hsource : p.sourceFormat.type = .dsdRaw) :
    (p.prepared e).FramesAccepted ↔
      (p.needsDsd = true → ∀ decoder ∈ p.dstDecoder, decoder.outputFormat = p.sourceFormat) := by
  obtain ⟨hin, hdecoder⟩ := prepared_dsd (e := e) h hsource
  have hframe : (p.prepared e).frameFormat = p.sourceFormat := by
    rw [frameFormat_eq_elim, hin]
    rfl
  have hformat : ∀ sink ∈ p.sinks, sink.caps.dsd = true → (p.prepared e).sinkFormat sink =
      p.dstDecoder.elim p.sourceFormat Transform.outputFormat := by
    intro sink hsink hd
    rw [sinkFormat_dsd (not_pcm_of_dsd h hsink hd), hdecoder]
    rfl
  rw [Pipe.FramesAccepted, prepared_sinks h, hframe, hsource]
  constructor
  · intro hacc hneeds decoder hd
    obtain ⟨sink, hsink, hdsd⟩ := List.any_eq_true.1 hneeds
    have hopen := (hacc sink hsink hdsd).2
    rwa [hformat sink hsink hdsd, Option.mem_def.1 hd] at hopen
  · intro hfit sink hsink hdsd
    refine ⟨hdsd, ?_⟩
    rw [hformat sink hsink hdsd]
    cases hold : p.dstDecoder with
    | none => rfl
    | some decoder => exact hfit (needsDsd_of_mem hsink hdsd) decoder hold

theorem framesAccepted_dst_iff (h : p.Built) (hsource : p.sourceFormat.type = .dst) :
    (p.prepared e).FramesAccepted ↔ (p.canAcceptDst = true →
      (∃ decoder ∈ p.dstDecoder, decoder.isInitialized = true) ∨
        p.dstDecoder = none ∧ ∀ sink ∈ p.sinks, sink.caps.dsd = true → sink.caps.dst = true) := by
  have hsame : (p.prepared e).decoderInUse = (p.prepared e).dstDecoder :=
    if_pos (show (p.prepared e).sourceFormat.type = .dst from hsource)
  have hopen : ∀ sink ∈ p.sinks, sink.caps.dsd = true →
      (p.prepared e).sinkFormat sink = (p.prepared e).frameFormat := by
    intro sink hsink hd
    rw [sinkFormat_dsd (not_pcm_of_dsd h hsink hd), frameFormat_eq_elim, hsame]
  rw [Pipe.FramesAccepted, prepared_sinks h]
  cases hcan : p.canAcceptDst with
  | false =>
    refine ⟨nofun, fun _ sink hsink hd => ⟨?_, hopen sink hsink hd⟩⟩
    rw [frameFormat_eq_elim, prepared_dst h hsource (needsDsd_of_mem hsink hd), hcan]
    exact hd
  | true =>
    have hneeds := needsDsd_of_canAcceptDst h hcan
    have hin := prepared_dst (e := e) h hsource hneeds
    rw [if_pos hcan] at hin
    rw [frameFormat_eq_elim, hin, imp_iff_right rfl]
    cases hold : p.dstDecoder with
    | none =>
      simp only [Option.elim_none, Option.not_mem_none, false_and, exists_false, false_or, true_and]
      constructor
      · intro hacc sink hsink hd
        have haccepts := (hacc sink hsink hd).1
        rwa [show (p.prepared e).sourceFormat.type = .dst from hsource] at haccepts
      · intro hall sink hsink hd
        refine ⟨?_, ?_⟩
        · rw [show (p.prepared e).sourceFormat.type = .dst from hsource]
          exact hall sink hsink hd
        · rw [hopen sink hsink hd, frameFormat_eq_elim, hin, hold]
          rfl
    | some decoder =>
      simp only [Option.elim_some, Option.mem_some, exists_eq_left', reduceCtorEq, false_and,
        or_false]
      have haccepts : ∀ sink : Sink, sink.caps.dsd = true →
          sink.caps.accepts decoder.outputFormat.type = decoder.isInitialized :=
        fun sink hd => accepts_output h hold hd
      constructor
      · intro hacc
        obtain ⟨sink, hsink, hd⟩ := List.any_eq_true.1 hneeds
        exact (haccepts sink hd).symm.trans (hacc sink hsink hd).1
      · intro hinit sink hsink hd
        refine ⟨(haccepts sink hd).trans hinit, ?_⟩
        rw [hopen sink hsink hd, frameFormat_eq_elim, hin, hold]
        rfl

theorem framesAccepted_iff (h : p.Built)
    (hsource : p.sourceFormat.type = .dsdRaw ∨ p.sourceFormat.type = .dst) :
    (p.prepared e).FramesAccepted ↔ p.FramesFit := by
  rcases hsource with hs | hs
  · rw [framesAccepted_dsd_iff h hs]
    refine ⟨fun hd => ⟨fun _ => hd, fun hdst => ?_⟩, fun hfit => hfit.dsd hs⟩
    rw [hs] at hdst
    cases hdst
  · rw [framesAccepted_dst_iff h hs]
    refine ⟨fun hd => ⟨fun hdsd => ?_, fun _ => hd⟩, fun hfit => hfit.dst hs⟩
    rw [hs] at hdsd
    cases hdsd

theorem marksRefused_iff (h : p.Built)
    (hsource : p.sourceFormat.type = .dsdRaw ∨ p.sourceFormat.type = .dst) :
    (p.prepared e).MarksRefused ↔ p.MarksFit := by
  have hpcm := (prepared_needs (e := e) h).2.1
  have hdst : p.sourceFormat.type = .dst → ∀ sink ∈ p.sinks, sink.caps.dsd = true →
      (((p.prepared e).decoderInUse = none ∨
        sink.caps.accepts (p.prepared e).frameFormat.type = false) ↔
      p.canAcceptDst = true ∧ ∀ decoder ∈ p.dstDecoder, decoder.isInitialized = false) := by
    intro hs sink hsink hd
    rw [frameFormat_eq_elim, prepared_dst h hs (needsDsd_of_mem hsink hd)]
    cases hcan : p.canAcceptDst with
    | false =>
      have haccepts : sink.caps.accepts .dsdRaw = true := hd
      simp [haccepts]
    | true =>
      rw [if_pos rfl]
      cases hold : p.dstDecoder with
      | none => simp
      | some decoder =>
        rw [Option.elim_some, accepts_output h hold hd]
        simp
  constructor
  · rintro ⟨hno, hmarks⟩
    refine ⟨hpcm.symm.trans hno, fun hs hneeds => ?_⟩
    obtain ⟨sink, hsink, hd⟩ := List.any_eq_true.1 hneeds
    exact (hdst hs sink hsink hd).1 (hmarks sink (by rwa [prepared_sinks h]) hd)
  · rintro ⟨hno, hmarks⟩
    refine ⟨hpcm.trans hno, fun sink hsink hd => ?_⟩
    rw [prepared_sinks h] at hsink
    rcases hsource with hs | hs
    · exact .inl (prepared_dsd h hs).1
    · exact (hdst hs sink hsink hd).2 (hmarks hs (needsDsd_of_mem hsink hd))

end Prepared

/-- When a run succeeds, every sink for audio has been given every track if and only if the
frames, where there are any, fit the sinks, and the empty buffer of an end-of-track return,
where there is one, goes to none of them. -/
theorem sinks_get_tracks_iff (history : List (Action α)) (e : Env α)
    (hok : (play history).status e = ok) :
    (play history).DeliversAll e ↔
      ((∃ k < ((play history).selection e).length, (e.feed k).frames ≠ []) →
        (play history).FramesFit) ∧
      ((∃ k < ((play history).selection e).length, (e.feed k).endsByReturn = true) →
        (play history).MarksFit) := by
  have hbuilt := play_built history
  have hsource := hbuilt.source (((play history).status_ok_iff e).1 hok).1.1
  rw [deliversAll_iff hbuilt hok, framesAccepted_iff hbuilt hsource,
    marksRefused_iff hbuilt hsource]

theorem dsdiff_ne_none : SourceType.dsdiff ≠ .none := nofun

theorem dst_isDsd : FormatType.dst = .dsdRaw ∨ FormatType.dst = .dst := .inr rfl

/-- A DSDIFF file with DST frames in stereo. -/
def dstFile : OpenSource := ⟨.dsdiff, ⟨.dst, 2822400, 2, 1, 75⟩, dsdiff_ne_none, dst_isDsd⟩

/-- A copy in DST beside one in DSF. -/
def dstAndDsf : List (Action Unit) :=
  [.set (.setSource dstFile), .set (.addSink .dsdiff true), .set (.addSink .dsf false)]

/-- Every call succeeds; there is one track, of one frame. -/
def oneFrame : Env Unit where
  answer := fun _ => ok
  trackCount := ⟨1, one_lt_256⟩
  feed := fun _ => .lastBatch () []
  cancels := fun _ => false

theorem dstAndDsf_ok : (play dstAndDsf).status oneFrame = ok := rfl

theorem sinks_get_tracks_iff_dstAndDsf :
    (play dstAndDsf).status oneFrame = ok ∧
      ((play dstAndDsf).DeliversAll oneFrame ↔
        ((∃ k < ((play dstAndDsf).selection oneFrame).length, (oneFrame.feed k).frames ≠ []) →
          (play dstAndDsf).FramesFit) ∧
        ((∃ k < ((play dstAndDsf).selection oneFrame).length,
          (oneFrame.feed k).endsByReturn = true) → (play dstAndDsf).MarksFit)) :=
  ⟨dstAndDsf_ok, sinks_get_tracks_iff dstAndDsf oneFrame dstAndDsf_ok⟩

/-- The DSF file gets no frame: the sink for DST keeps the decoder out. -/
theorem dsf_beside_dst_gets_nothing : ¬ ∀ (history : List (Action Unit)) (e : Env Unit),
    (play history).status e = ok → (play history).DeliversAll e := by
  intro h
  have hall := h dstAndDsf oneFrame rfl 0 1 (Sink.create .dsf false) (by decide) rfl rfl
  have hnone : seen (Call.frameTo 1 0) ((play dstAndDsf).calls oneFrame) = [] := rfl
  rw [Delivered, hnone] at hall
  cases hall

end DsdNexus.Dsdpipe
