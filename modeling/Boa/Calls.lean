import Boa.Runs

/-! What every routine does to the ranges of a request, as the calls of range.c that it makes,
and to the size of its environment array. -/
namespace Boa
open Memory

/-- The places of the source that change the list of a request: the routines of range.c, the
range of a whole file in `init_get`, `complete_response`, and the start of the first range,
which moves as data is sent. -/
inductive RangeCall
  | add (start stop : ℕ)
  | abort
  | reset
  | fixup (filesize : ℕ)
  | whole
  | complete
  | move (start : ℕ)

namespace RangeCall

/-- Where the source makes the call: `init_get` looks for a range first, and the last two
follow the pointer to one. -/
def Allowed : RangeCall → List Range → Prop
  | .whole, rs => rs = []
  | .complete, rs => rs ≠ []
  | .move _, rs => rs ≠ []
  | _, _ => True

def result : RangeCall → List Range → List Range
  | .add start stop, rs => rs ++ [⟨start, stop⟩]
  | .abort, _ => [⟨0, ulongMax⟩]
  | .reset, _ => []
  | .fixup filesize, rs => fixupRanges filesize rs
  | .whole, _ => [⟨0, ulongMax⟩]
  | .complete, rs => rs.tail
  | .move start, rs => rs.modifyHead fun r => { r with start := start }

/-- The calls that are made while data is sent. -/
def sends : RangeCall → Prop
  | .complete | .move _ => True
  | _ => False

/-- The calls of a round before `free_request`. -/
def served : RangeCall → Prop
  | .reset => False
  | _ => True

/-- The calls that the handler of a status makes. -/
def madeIn (s : Status) (k : RangeCall) : Prop := s.inHeader ∧ k.served ∨ (s = .write ∨ s = .ioShuffle) ∧ k.sends

end RangeCall

/-- The calls lead from one list to the other. -/
inductive Ranged : List Range → List RangeCall → List Range → Prop
  | nil (rs : List Range) : Ranged rs [] rs
  | cons {rs rs' : List Range} {k : RangeCall} {ks : List RangeCall} (hk : k.Allowed rs)
      (h : Ranged (k.result rs) ks rs') : Ranged rs (k :: ks) rs'

namespace Ranged

lemma one {rs rs' : List Range} {k : RangeCall} (hk : k.Allowed rs) (he : k.result rs = rs') :
    Ranged rs [k] rs' := by
  subst he
  exact .cons hk (.nil _)

lemma trans {rs rs' rs'' : List Range} {ks ks' : List RangeCall} (h : Ranged rs ks rs')
    (h' : Ranged rs' ks' rs'') : Ranged rs (ks ++ ks') rs'' := by
  induction h with
  | nil rs => exact h'
  | cons hk _ ih => exact .cons hk (ih h')

/-- The calls of `range_add` in `range_parse`. -/
lemma adds (rs l : List Range) : Ranged rs (l.map fun r => .add r.start r.stop) (rs ++ l) := by
  induction l generalizing rs with
  | nil =>
    rw [List.append_nil]
    exact .nil rs
  | cons r l ih =>
    have h := ih (rs ++ [r])
    rw [List.append_assoc] at h
    exact .cons trivial h

end Ranged

/-- The slots of the environment array that `add_cgi_env` and `complete_env` write. -/
def Env.envRoom (env : Env) : ℕ := max env.cfg.commonCgiEnv.length (cgiEnvMax + 1)

/-- A routine changes the ranges by calls of the kind `K`, and keeps the array in its bounds. -/
structure TouchesBy (K : RangeCall → Prop) (env : Env) (c d : Request) : Prop where
  ranged : ∃ ks, (∀ k ∈ ks, K k) ∧ Ranged c.ranges ks d.ranges
  room : d.cgiEnv.length ≤ max c.cgiEnv.length env.envRoom

abbrev Touches : Env → Request → Request → Prop := TouchesBy RangeCall.served

variable {K K' : RangeCall → Prop} {env : Env} {c d : Request}

namespace TouchesBy

lemma trans {e : Request} (h : TouchesBy K env c d) (h' : TouchesBy K env d e) : TouchesBy K env c e := by
  obtain ⟨ks, hks, hk⟩ := h.ranged
  obtain ⟨ks', hks', hk'⟩ := h'.ranged
  have h1 := h.room
  have h2 := h'.room
  exact ⟨⟨ks ++ ks', fun k hm => (List.mem_append.mp hm).elim (hks k) (hks' k), hk.trans hk'⟩, by omega⟩

lemma mono (h : TouchesBy K env c d) (hK : ∀ k, K k → K' k) : TouchesBy K' env c d := by
  obtain ⟨ks, hks, hk⟩ := h.ranged
  exact ⟨⟨ks, fun k hm => hK k (hks k hm), hk⟩, h.room⟩

/-- What sends data makes calls of a round. -/
lemma served (h : TouchesBy RangeCall.sends env c d) : Touches env c d := by
  refine h.mono fun k hk => ?_
  cases k <;> trivial

lemma of_eq (hr : d.ranges = c.ranges) (he : d.cgiEnv = c.cgiEnv) : TouchesBy K env c d := by
  refine ⟨⟨[], by simp, ?_⟩, ?_⟩
  · rw [hr]
    exact .nil _
  · rw [he]
    exact le_max_left _ _

lemma behind {e : Request} (h : TouchesBy K env d e) (hr : d.ranges = c.ranges) (he : d.cgiEnv = c.cgiEnv) :
    TouchesBy K env c e := (of_eq hr he).trans h

lemma refl (c : Request) : TouchesBy K env c c := .of_eq rfl rfl

lemma call (k : RangeCall) (hK : K k) (hk : k.Allowed c.ranges) (hr : k.result c.ranges = d.ranges)
    (he : d.cgiEnv = c.cgiEnv) : TouchesBy K env c d :=
  ⟨⟨[k], by simpa using hK, .one hk hr⟩, by rw [he]; exact le_max_left _ _⟩

end TouchesBy

lemma Refused.touches (h : Refused c d) : TouchesBy K env c d := by
  obtain ⟨o, code, rfl, -⟩ := h
  exact .of_eq rfl rfl

lemma Noted.touches (h : Noted c d) : TouchesBy K env c d := by
  obtain ⟨es, uri, size, path, rfl, -⟩ := h
  exact .of_eq rfl rfl

lemma Located.touches (h : Located c d) : TouchesBy K env c d := by
  obtain ⟨es, ct, pn, sn, pi, pt, rfl, -⟩ := h
  exact .of_eq rfl rfl

lemma LoglineOf.touches (h : LoglineOf c d) : TouchesBy K env c d := by
  obtain ⟨m, v, uri, hh, ka, idx, rfl, -⟩ := h
  exact .of_eq rfl rfl

lemma length_store_one {α : Type} [Inhabited α] (m : List α) (a : ℕ) (x : α) :
    (store m a [x]).length = max m.length (a + 1) := by
  simp only [store, List.length_append, List.length_take, List.length_replicate,
    List.length_singleton, List.length_drop]
  omega

namespace Request

/-! ### Answers -/

lemma completeResponse_touches (env : Env) (c : Request) : TouchesBy RangeCall.sends env c (c.completeResponse env).1 := by
  unfold completeResponse
  split
  · exact .of_eq rfl rfl
  · next r rest hr =>
    have h : TouchesBy RangeCall.sends env c { c with ranges := rest } :=
      .call .complete trivial (by rw [hr]; exact List.cons_ne_nil r rest) (by rw [hr]; rfl) rfl
    dsimp only
    split_ifs
    · cases rest with
      | nil => exact h.trans (.of_eq rfl rfl)
      | cons r rest => exact h.trans (.of_eq rfl rfl)
    · exact h.trans (.of_eq rfl rfl)

lemma sendRRequestOk_touches (env : Env) (c : Request) : Touches env c (c.sendRRequestOk env) := by
  unfold sendRRequestOk
  dsimp only
  split_ifs <;> exact .of_eq rfl rfl

lemma rangesFixup_touches (env : Env) (c : Request) : Touches env c (c.rangesFixup env).1 := by
  have h : Touches env c { c with ranges := fixupRanges c.filesize c.ranges } :=
    .call (.fixup c.filesize) trivial trivial rfl rfl
  unfold rangesFixup
  dsimp only
  split_ifs
  · exact h.trans (sendRInvalidRange_refused env _).touches
  · exact h

/-! ### Children -/

lemma addCgiEnv_touches (env : Env) (c : Request) (key value : Bytes) (b : Bool) :
    TouchesBy K env c (c.addCgiEnv key value b).1 := by
  unfold addCgiEnv
  split_ifs with hroom
  · refine ⟨⟨[], by simp, .nil _⟩, ?_⟩
    rw [length_store_one]
    unfold Env.envRoom
    omega
  · exact .refl c

lemma addCgiEnvs_touches (env : Env) (c : Request) (kvs : List (Bytes × Bytes)) :
    TouchesBy K env c (c.addCgiEnvs kvs).1 := by
  induction kvs generalizing c with
  | nil => exact .refl c
  | cons kv kvs ih =>
    have h := addCgiEnv_touches (K := K) env c kv.1 kv.2 false
    unfold addCgiEnvs
    split
    · next c' he =>
      rw [he] at h
      exact h.trans (ih c')
    · next c' he =>
      rw [he] at h
      exact h

lemma length_withCommon (cfg : Config) (m : List (Option Bytes)) :
    (store m 0 (cfg.commonCgiEnv.map some)).length = max m.length cfg.commonCgiEnv.length := by
  simp only [store, List.length_append, List.length_take, List.length_replicate, List.length_map,
    List.length_drop]
  omega

/-- The index never passes the limit, so the terminator has its slot. -/
lemma completeEnv_touches (env : Env) (c : Request) : TouchesBy K env c (c.completeEnv env.cfg).1 := by
  have h : TouchesBy K env c { c with cgiEnv := store c.cgiEnv 0 (env.cfg.commonCgiEnv.map some) } := by
    refine ⟨⟨[], by simp, .nil _⟩, ?_⟩
    rw [length_withCommon]
    unfold Env.envRoom
    omega
  have h2 := h.trans (addCgiEnvs_touches env _ (serverVariables env.cfg
    { c with cgiEnv := store c.cgiEnv 0 (env.cfg.commonCgiEnv.map some) }))
  unfold completeEnv
  dsimp only
  split
  · next c' he =>
    rw [he] at h2
    exact h2
  · next c' he =>
    rw [he] at h2
    split_ifs with hroom
    · have hend : TouchesBy K env c' { c' with cgiEnv := store c'.cgiEnv c'.cgiEnvIndex [none] } := by
        refine ⟨⟨[], by simp, .nil _⟩, ?_⟩
        rw [length_store_one]
        unfold Env.envRoom
        omega
      exact h2.trans hend
    · exact h2

lemma spawn_touches (env : Env) (c : Request) : TouchesBy K env c (c.spawn env).1 := by
  have hclose : ∀ d : Request, d.closePostData.ranges = d.ranges ∧ d.closePostData.cgiEnv = d.cgiEnv := by
    intro d
    unfold closePostData
    split_ifs <;> exact ⟨rfl, rfl⟩
  have hlog : (if c.usesPipes then c.log (.opened env.pipeFd) else c).ranges = c.ranges ∧
      (if c.usesPipes then c.log (.opened env.pipeFd) else c).cgiEnv = c.cgiEnv := by
    split_ifs <;> exact ⟨rfl, rfl⟩
  unfold spawn
  generalize (if c.usesPipes then c.log (.opened env.pipeFd) else c) = d at hlog ⊢
  have hperr : TouchesBy K env c (d.boaPerror env) :=
    (TouchesBy.of_eq hlog.1 hlog.2).trans (sendRError_refused env d).touches
  dsimp only
  split_ifs
  · exact .refl c
  · exact .of_eq hlog.1 hlog.2
  · exact hperr.trans (.of_eq rfl rfl)
  · exact hperr
  · exact .of_eq ((hclose d).1.trans hlog.1) ((hclose d).2.trans hlog.2)
  · exact .of_eq ((hclose d).1.trans hlog.1) ((hclose d).2.trans hlog.2)

lemma initCgi_touches (env : Env) (c : Request) : TouchesBy K env c (c.initCgi env).1 := by
  have h : TouchesBy K env c c.squashKa := .of_eq rfl rfl
  unfold initCgi
  dsimp only
  split_ifs
  · exact h.trans (spawn_touches env _)
  · have h2 := h.trans (completeEnv_touches env c.squashKa)
    split
    · next c' he =>
      rw [he] at h2
      exact h2
    · next c' he =>
      rw [he] at h2
      exact h2.trans (spawn_touches env _)

lemma streamHeader_touches (env : Env) (c : Request) (line : String) (tail : List Msg) :
    Touches env c (c.streamHeader env line tail) := by
  unfold streamHeader
  split_ifs <;> exact .of_eq rfl rfl

/-- A header without a length, and the child that writes the body. -/
lemma stream_touches {e : Request} (h : Touches env c d) (line : String) (tail : List Msg)
    (he : Touches env (d.streamHeader env line tail) e) : Touches env c (e.initCgi env).1 :=
  (h.trans ((streamHeader_touches env d line tail).trans he)).trans (initCgi_touches env e)

/-! ### Directories -/

lemma rebuildCache_touches (env : Env) (c : Request) (dir : File) (name : Bytes) :
    Touches env c (c.rebuildCache env dir name).1 := by
  have h : Touches env c (c.indexDirectory env).1 := by
    unfold indexDirectory
    split
    · exact (sendRForbidden_refused env c).touches
    · exact (sendRBadRequest_refused env c).touches
    · split_ifs
      · exact (sendRError_refused env c).touches
      · exact (sendRError_refused env c).touches
      · exact .of_eq rfl rfl
  unfold rebuildCache
  split
  · next c' he =>
    rw [he] at h
    exact h
  · next c' he =>
    rw [he] at h
    split
    · exact h.trans ((useIndexName_noted env _).touches.behind rfl rfl)
    · exact h.trans (sendRError_refused env c').touches

lemma makeDir_touches (env : Env) (c : Request) (dir : File) : Touches env c (c.makeDir env dir).1 := by
  have h : Touches env c { c.squashKa with responseStatus := 200 } := .of_eq rfl rfl
  unfold makeDir
  dsimp only
  split_ifs
  · exact h.trans (streamHeader_touches env _ _ _)
  · exact stream_touches h _ _ (.refl _)
  · split
    · next cachedir _ =>
      unfold getCachedirFile
      dsimp only
      split
      · exact rebuildCache_touches env c dir _
      · split_ifs
        · exact (useIndexName_noted env _).touches.behind rfl rfl
        · exact (rebuildCache_touches env _ dir _).behind rfl rfl
    · exact (sendRForbidden_refused env c).touches

lemma getDir_touches (env : Env) (c : Request) (dir : File) : Touches env c (c.getDir env dir).1 := by
  unfold getDir
  split
  · exact makeDir_touches env c dir
  · next index _ =>
    dsimp only
    generalize (if env.cfg.gunzip then 3 else 0) = k
    split
    · exact (sendRError_refused env c).touches
    · split
      · exact .of_eq rfl rfl
      · exact (sendRForbidden_refused env c).touches
      · exact (sendRNotFound_refused env c).touches
      · split_ifs
        · split
          · next f _ =>
            unfold gunzipIndex
            have h : Touches env c { ((c.log (.opened f.fd)).log (.closed f.fd)).squashKa with
                responseStatus := 200, pathname := some (c.path ++ index ++ text ".gz") } := .of_eq rfl rfl
            dsimp only
            split_ifs
            · exact h.trans (streamHeader_touches env _ _ _)
            · exact stream_touches h _ _ (.of_eq rfl rfl)
          · exact makeDir_touches env c dir
        · exact makeDir_touches env c dir

/-! ### Files -/

lemma moveRange_touches {r : Range} {rest : List Range} (hr : c.ranges = r :: rest) (n : ℕ) :
    TouchesBy RangeCall.sends env c (c.moveRange r rest n) :=
  .call (.move (r.start + n)) trivial (by rw [hr]; exact List.cons_ne_nil r rest) (by rw [hr]; rfl) rfl

lemma startTransfer_touches (env : Env) (c : Request) : TouchesBy RangeCall.sends env c (c.startTransfer env).1 := by
  unfold startTransfer
  split_ifs
  · exact completeResponse_touches env c
  · unfold firstChunk
    split
    · next mem r rest _ hr =>
      have hdata : ∀ bs n, TouchesBy RangeCall.sends env c ((c.bufferData bs).moveRange r rest n) := fun bs n =>
        TouchesBy.behind (moveRange_touches (c := c.bufferData bs) hr n) rfl rfl
      dsimp only
      split_ifs
      · exact (sendRError_refused env _).touches.behind rfl rfl
      · exact (hdata _ _).trans (completeResponse_touches env _)
      · exact hdata _ _
      · exact .refl c
    · exact .refl c

lemma respond_touches (env : Env) (c : Request) : Touches env c (c.respond env).1 := by
  unfold respond
  split
  · exact (startTransfer_touches env _).served.behind rfl rfl
  · next hr =>
    have h1 : Touches env c { c with ranges := [⟨0, ulongMax⟩] } := .call .whole trivial hr rfl rfl
    have h2 := h1.trans (rangesFixup_touches env { c with ranges := [⟨0, ulongMax⟩] })
    split
    · next c' he =>
      rw [he] at h2
      exact h2
    · next c' he =>
      rw [he] at h2
      exact (h2.trans (sendRRequestOk_touches env c')).trans (startTransfer_touches env _).served

lemma serveFile_touches (env : Env) (c : Request) (f : File) (path : Bytes) :
    Touches env c (c.serveFile env f path).1 := by
  have h1 : Touches env c { c.log (.serve path) with filesize := f.size, lastModified := f.mtime } :=
    .of_eq rfl rfl
  have hstart : ∀ d : Request, Touches env d ((d.attachData env f).respond env).1 := by
    intro d
    refine TouchesBy.trans ?_ (respond_touches env _)
    unfold attachData
    split_ifs <;> exact .of_eq rfl rfl
  unfold serveFile
  split_ifs
  · exact (sendRBadRequest_refused env c).touches.trans (.of_eq rfl rfl)
  unfold serveRegular
  split_ifs
  · exact .of_eq rfl rfl
  dsimp only
  split_ifs
  · refine h1.trans ?_
    unfold sendRNoContent
    dsimp only
    split_ifs <;> exact .of_eq rfl rfl
  · exact (h1.trans (sendRRequestOk_touches env _)).trans (.of_eq rfl rfl)
  · have h2 := h1.trans (rangesFixup_touches env
      { c.log (.serve path) with filesize := f.size, lastModified := f.mtime })
    split
    · next c' he =>
      rw [he] at h2
      exact h2.trans (.of_eq rfl rfl)
    · next c' he =>
      rw [he] at h2
      exact h2.trans (hstart c')
  · exact h1.trans (hstart _)

lemma serveOpened_touches (env : Env) (c : Request) (f : File) : Touches env c (c.serveOpened env f).1 := by
  unfold serveOpened
  split_ifs
  · exact (sendRForbidden_refused env c).touches
  · have h1 : Touches env c (c.log (.closed f.fd)) := .of_eq rfl rfl
    unfold serveDirectory
    dsimp only
    split_ifs
    · refine h1.trans ?_
      unfold redirectDirectory
      dsimp only
      split_ifs
      · exact (sendRError_refused env _).touches
      · exact (sendRMovedPerm_refused env _ _).touches
    · have h2 := h1.trans (getDir_touches env (c.log (.closed f.fd)) f)
      split
      · next c' he =>
        rw [he] at h2
        exact h2
      · next c' r he =>
        rw [he] at h2
        exact h2
      · next c' g path he =>
        rw [he] at h2
        exact h2.trans (serveFile_touches env c' g path)
  · exact serveFile_touches env c f _

lemma gunzipDocument_touches {r : Request × Ret} (h : c.gunzipDocument env = some r) :
    Touches env c r.1 := by
  unfold gunzipDocument at h
  split_ifs at h
  · cases h
    exact (sendRBadRequest_refused env c).touches
  dsimp only at h
  split at h
  · cases h
  · next f _ =>
    have h1 : Touches env c { (c.log (.opened f.fd)).log (.closed f.fd) with
        responseStatus := 200, pathname := some (c.path ++ text ".gz") } := .of_eq rfl rfl
    split_ifs at h
    · cases h
      exact h1.trans (streamHeader_touches env _ _ _)
    · cases h
      exact stream_touches h1 _ _ (.of_eq rfl rfl)

lemma initGet_touches (env : Env) (c : Request) : Touches env c (c.initGet env).1 := by
  unfold initGet
  split
  · next f _ => exact (serveOpened_touches env _ f).behind rfl rfl
  · next e _ =>
    have hn := openRewritten_noted env c e
    split
    · next c' f he =>
      rw [he] at hn
      exact hn.touches.trans (serveOpened_touches env c' f)
    · next c' e' he =>
      rw [he] at hn
      have hfail : Touches env c (c'.openFailed env e) := hn.touches.trans (openFailed_refused env c' e).touches
      split_ifs
      · split
        · next r hr => exact hn.touches.trans (gunzipDocument_touches hr)
        · exact hfail
      · exact hfail

/-! ### Headers and bodies -/

lemma processHeaderEnd_touches (env : Env) (c : Request) : Touches env c (c.processHeaderEnd env).1 := by
  unfold processHeaderEnd
  obtain ⟨uri, query, host, he | ⟨d, he, hr⟩⟩ := acceptUri_cases env (c.log .headerEnd)
  · rw [he]
    dsimp only
    unfold dispatchUri
    obtain ⟨hr, hl⟩ | ⟨hr, d, hl, href⟩ := translateUri_translated env
      { c.log .headerEnd with requestUri := uri, queryString := query, host := host }
    · generalize translateUri env _ = r at hr hl
      obtain ⟨d, ok⟩ := r
      cases hr
      have hkeep : Touches env c d := hl.touches.behind rfl rfl
      dsimp only
      split_ifs
      · have hset : Touches env d (d.setPostDataFd env.tempFd) := by
          unfold setPostDataFd
          split_ifs <;> exact .of_eq rfl rfl
        refine (hkeep.trans hset).trans ?_
        unfold openPostFile
        generalize d.setPostDataFd env.tempFd = e
        dsimp only
        split_ifs
        · exact (sendRError_refused env e).touches
        · have hlog : Touches env e (e.log (.opened env.tempFd)) := .of_eq rfl rfl
          exact (hlog.trans (sendRError_refused env _).touches).trans (.of_eq rfl rfl)
        · exact .of_eq rfl rfl
      · exact hkeep.trans (initCgi_touches env d)
      · exact hkeep.trans ((initGet_touches env { d with status := .write }).behind rfl rfl)
    · generalize translateUri env _ = r at hr href
      obtain ⟨e, ok⟩ := r
      cases hr
      have hrefuse : Touches env c e := (hl.touches.trans href.touches).behind rfl rfl
      exact hrefuse.trans (.of_eq rfl rfl)
  · rw [he]
    exact hr.touches.behind rfl rfl

lemma endHeader_touches (env : Env) (c : Request) : Touches env c (c.endHeader env).1 := by
  have h := processHeaderEnd_touches env c
  obtain ⟨-, he⟩ | ⟨-, he⟩ | ⟨-, -, he⟩ := endHeader_cases env c
  · rw [he]
    exact h
  · rw [he]
    exact h
  · rw [he]
    obtain ⟨hl, hend, size, pos, hb | ⟨e, hb, hr⟩⟩ := startBody_cases env (c.processHeaderEnd env).1
    · rw [hb]
      exact h.trans (.of_eq rfl rfl)
    · rw [hb]
      exact h.trans (hr.touches.behind rfl rfl)

/-! ### The header -/

lemma rangeParse_touches (env : Env) (c : Request) (value : Bytes) :
    Touches env c (c.rangeParse value).1 := by
  unfold rangeParse
  split_ifs
  · exact .refl c
  · dsimp only
    have hadds := Ranged.adds c.ranges (rangeLoop {} (value.drop 6)).1
    have hserved : ∀ k ∈ (rangeLoop {} (value.drop 6)).1.map fun r => RangeCall.add r.start r.stop, k.served := by
      intro k hk
      obtain ⟨r, -, rfl⟩ := List.mem_map.mp hk
      trivial
    split_ifs
    · exact ⟨⟨_, hserved, hadds⟩, le_max_left _ _⟩
    · -- the ranges added so far go with the others
      refine ⟨⟨_ ++ [.abort], fun k hk => ?_, hadds.trans (Ranged.one (k := .abort) trivial rfl)⟩, le_max_left _ _⟩
      obtain hk | hk := List.mem_append.mp hk
      · exact hserved k hk
      · rw [List.mem_singleton.mp hk]
        trivial

lemma rangeOption_touches (env : Env) (c : Request) (value : Bytes) :
    Touches env c (c.rangeOption env value).1 := by
  unfold rangeOption
  split_ifs
  · exact .refl c
  · have h := rangeParse_touches env c value
    split
    · next d hd =>
      rw [hd] at h
      exact h.trans (sendRInvalidRange_refused env d).touches
    · next d hd =>
      rw [hd] at h
      exact h

lemma Touches_ite {p : Prop} [Decidable p] {r r' : Request × Option Bool} (h : Touches env c r.1)
    (h' : Touches env c r'.1) : Touches env c (if p then r else r').1 := by
  split_ifs
  · exact h
  · exact h'

lemma optionSwitch_touches (env : Env) (c : Request) (key value : Bytes) :
    Touches env c (c.optionSwitch env key value).1 := by
  unfold optionSwitch
  refine Touches_ite (.refl c) ?_
  iterate 5
    refine Touches_ite (.of_eq rfl rfl) ?_
  refine Touches_ite ?_ (Touches_ite (rangeOption_touches env c value)
    (Touches_ite ?_ (Touches_ite (.of_eq rfl rfl) (.refl c))))
  · have h : Touches env c _ := (addCgiEnv_touches env { c with headerReferer := some value }
      (text "REFERER") value true).behind rfl rfl
    split
    · next d hd =>
      rw [hd] at h
      exact h
    · next d hd =>
      rw [hd] at h
      exact h
  · exact (addCgiEnv_touches env { c with headerUserAgent := some value } (text "USER_AGENT") value
      true).behind rfl rfl

lemma processOptionLine_touches (env : Env) (c : Request) : Touches env c (c.processOptionLine env).1 := by
  have hlog : Touches env c (c.log (.optionLine c.lineAt)) := .of_eq rfl rfl
  unfold processOptionLine
  dsimp only
  split
  · exact hlog
  · next v _ =>
    split_ifs
    · exact hlog
    · generalize toUpper _ = key
      generalize List.dropWhile _ v = value
      have h := hlog.trans (optionSwitch_touches env (c.log (.optionLine c.lineAt)) key value)
      split
      · next d ok hd =>
        rw [hd] at h
        exact h
      · next d hd =>
        rw [hd] at h
        exact h.trans (addCgiEnv_touches env d key value true)

lemma endLine_touches (env : Env) (c : Request) : Touches env c (c.endLine env).1 := by
  unfold endLine
  have hterm : Touches env c c.terminateLine := .of_eq rfl rfl
  generalize c.terminateLine = d at hterm ⊢
  dsimp only
  split_ifs
  · exact hterm.trans ((sendRBadRequest_refused env _).touches.behind rfl rfl)
  · have h := hterm.trans (processOptionLine_touches env d)
    split
    · next e he =>
      rw [he] at h
      exact h
    · next e he =>
      rw [he] at h
      exact h.trans (.of_eq rfl rfl)
  · obtain ⟨e, hl, he | ⟨f, he, hr⟩⟩ := processLogline_cases env d
    · rw [he]
      dsimp only
      split_ifs
      · exact (hterm.trans hl.touches).trans (processHeaderEnd_touches env e)
      · exact (hterm.trans hl.touches).trans (.of_eq rfl rfl)
    · rw [he]
      exact (hterm.trans hl.touches).trans hr.touches

lemma scanHeader_touches (env : Env) (c : Request) (bs : Bytes) : Touches env c (scanHeader env c bs).1 := by
  induction bs generalizing c with
  | nil => exact .refl c
  | cons uc bs ih =>
    have hbyte : Touches env c (c.headerByte env uc).1 := by
      have hadv : Touches env c (c.advance uc) := .of_eq rfl rfl
      unfold headerByte
      dsimp only
      split_ifs
      · exact (sendRBadRequest_refused env _).touches.behind rfl rfl
      · exact hadv.trans (endLine_touches env _)
      · exact hadv.trans (endHeader_touches env _)
      · exact hadv
    unfold scanHeader
    generalize c.headerByte env uc = r at hbyte
    obtain ⟨d, _ | ret⟩ := r
    · exact hbyte.trans (ih d)
    · exact hbyte

lemma readHeader_touches (env : Env) (c : Request) : Touches env c (c.readHeader env).1 := by
  have h := scanHeader_touches env c (c.clientStream.drop c.parsePos)
  unfold readHeader
  generalize scanHeader env c (c.clientStream.drop c.parsePos) = r at h
  obtain ⟨d, _ | ret⟩ := r
  · dsimp only
    split_ifs
    · refine h.trans ?_
      unfold readMore
      dsimp only
      split_ifs
      · exact .of_eq rfl rfl
      · split <;> exact .of_eq rfl rfl
    · exact h
  · exact h

lemma readBody_touches (env : Env) (c : Request) : TouchesBy K env c (c.readBody env).1 := by
  unfold readBody
  dsimp only
  split_ifs
  · exact .of_eq rfl rfl
  · have hpop : TouchesBy K env c c.popClient := .of_eq rfl rfl
    split
    · exact hpop
    · exact (hpop.trans (sendRError_refused env _).touches).trans (.of_eq rfl rfl)
    · exact (hpop.trans (sendRError_refused env _).touches).trans (.of_eq rfl rfl)
    · exact hpop.trans (sendRBadRequest_refused env _).touches
    · have hstore : ∀ (d : Request) bs, (d.storeAtEnd bs).ranges = d.ranges ∧
          (d.storeAtEnd bs).cgiEnv = d.cgiEnv := by
        intro d bs
        unfold storeAtEnd
        split <;> exact ⟨rfl, rfl⟩
      obtain ⟨h1, h2⟩ := hstore c.popClient _
      exact .of_eq h1 h2

lemma writeBody_touches (env : Env) (c : Request) : TouchesBy K env c (c.writeBody env).1 := by
  unfold writeBody
  dsimp only
  split_ifs
  · exact (initCgi_touches env _).behind rfl rfl
  · exact .of_eq rfl rfl
  · split
    · exact .of_eq rfl rfl
    · exact .of_eq rfl rfl
    · exact (sendRError_refused env _).touches.behind rfl rfl
    · exact .of_eq rfl rfl

/-! ### Transfers -/

lemma processGet_touches (env : Env) (c : Request) : TouchesBy RangeCall.sends env c (c.processGet env).1 := by
  unfold processGet
  split
  · exact completeResponse_touches env c
  · split
    · exact .of_eq rfl rfl
    · next r rest hr =>
      dsimp only
      split_ifs
      · exact .of_eq rfl rfl
      · split
        · exact .of_eq rfl rfl
        · exact .of_eq rfl rfl
        · exact .of_eq rfl rfl
        · next n _ =>
          have hmove : ∀ bs m, TouchesBy RangeCall.sends env c ((c.popSock.sendDirect bs).moveRange r rest m) := fun bs m =>
            TouchesBy.behind (moveRange_touches (c := c.popSock.sendDirect bs) hr m) rfl rfl
          split_ifs
          · exact (hmove _ _).trans (completeResponse_touches env _)
          · exact hmove _ _

lemma shuffleWrite_touches (env : Env) (c : Request) : TouchesBy RangeCall.sends env c c.shuffleWrite.1 := by
  unfold shuffleWrite
  dsimp only
  split_ifs
  · exact .refl c
  · exact .of_eq rfl rfl
  · split
    · exact .of_eq rfl rfl
    · exact .of_eq rfl rfl
    · exact .of_eq rfl rfl
    · split_ifs <;> exact .of_eq rfl rfl

lemma ioShuffle_touches (env : Env) (c : Request) : TouchesBy RangeCall.sends env c (c.ioShuffle env).1 := by
  unfold ioShuffle
  split_ifs
  · exact completeResponse_touches env c
  · split
    · exact .of_eq rfl rfl
    · next r rest hr =>
      have hwrite : ∀ d : Request, d.ranges = c.ranges → d.cgiEnv = c.cgiEnv →
          TouchesBy RangeCall.sends env c d.shuffleWrite.1 := fun d h1 h2 => (shuffleWrite_touches env d).behind h1 h2
      dsimp only
      split_ifs
      · unfold shuffleRead
        split_ifs
        · exact .of_eq rfl rfl
        · dsimp only
          split
          · split_ifs
            · exact .of_eq rfl rfl
            · exact hwrite _ rfl rfl
          · split_ifs
            · exact .of_eq rfl rfl
            · exact hwrite _ rfl rfl
          · exact .of_eq rfl rfl
          · exact hwrite _ rfl rfl
          · next bs _ =>
            have hmove : TouchesBy RangeCall.sends env c { c.restartRead.popFile.bufferData bs with
                ranges := { r with start := r.start + bs.length } :: rest } :=
              .call (.move (r.start + bs.length)) trivial (by rw [hr]; exact List.cons_ne_nil r rest) (by rw [hr]; rfl) rfl
            split_ifs
            · exact hmove.trans (completeResponse_touches env _)
            · exact hmove.trans (shuffleWrite_touches env _)
      · exact shuffleWrite_touches env c

lemma ioShuffleSendfile_touches (env : Env) (c : Request) : TouchesBy RangeCall.sends env c (c.ioShuffleSendfile env).1 := by
  have hsent : ∀ d : Request, TouchesBy RangeCall.sends env d (d.sentRange env).1 := by
    intro d
    unfold sentRange
    split
    · exact .of_eq rfl rfl
    · split_ifs
      · exact completeResponse_touches env d
      · exact .refl d
  unfold ioShuffleSendfile
  split_ifs
  · exact completeResponse_touches env c
  · split
    · exact .of_eq rfl rfl
    · next r rest hr =>
      dsimp only
      split_ifs
      · exact hsent c
      · exact .of_eq rfl rfl
      · split
        · exact (ioShuffle_touches env c.popSend).behind rfl rfl
        · exact .of_eq rfl rfl
        · exact .of_eq rfl rfl
        · exact .of_eq rfl rfl
        · exact .of_eq rfl rfl
        · next bs _ _ =>
          split_ifs
          · exact .of_eq rfl rfl
          · have hmove : TouchesBy RangeCall.sends env c ((c.popSend.sendDirect bs).moveRange r rest bs.length) :=
              TouchesBy.behind (moveRange_touches (c := c.popSend.sendDirect bs) hr bs.length) rfl rfl
            exact hmove.trans (hsent _)

/-! ### Pipes -/

/-- The two fields, which no routine on a pipe changes. -/
def lists (c : Request) : List Range × List (Option Bytes) := (c.ranges, c.cgiEnv)

end Request

lemma TouchesBy.of_lists (h : d.lists = c.lists) : TouchesBy K env c d := by
  simp only [Request.lists, Prod.mk.injEq] at h
  exact .of_eq h.1 h.2

namespace Request

lemma lists_of_beyond (h : d.beyond = c.beyond) : d.lists = c.lists := by
  simp only [beyond, Prod.mk.injEq] at h
  rw [lists, lists, h.2.2.1, h.2.2.2.1]

lemma writeFromPipe_lists (c : Request) : c.writeFromPipe.1.lists = c.lists :=
  lists_of_beyond (writeFromPipe_beyond c)

lemma readFromPipe_lists (env : Env) (c : Request) : (c.readFromPipe env).1.lists = c.lists := by
  obtain h | h := readFromPipe_beyond env c
  · exact lists_of_beyond h
  · exact lists_of_beyond (c := c.popFile) h

/-! ### Rounds -/

lemma handle_touches (env : Env) (c : Request) : TouchesBy (RangeCall.madeIn c.status) env c (c.handle env).1 := by
  have hheader {s : Status} {e : Request} (hs : s.inHeader) (h : Touches env c e) :
      TouchesBy (RangeCall.madeIn s) env c e := h.mono fun k hk => .inl ⟨hs, hk⟩
  have hsends {s : Status} {e : Request} (hs : s = .write ∨ s = .ioShuffle)
      (h : TouchesBy RangeCall.sends env c e) : TouchesBy (RangeCall.madeIn s) env c e :=
    h.mono fun k hk => .inr ⟨hs, hk⟩
  unfold handle
  cases c.status with
  | readHeader => exact hheader (by decide) (readHeader_touches env c)
  | oneCr => exact hheader (by decide) (readHeader_touches env c)
  | oneLf => exact hheader (by decide) (readHeader_touches env c)
  | twoCr => exact hheader (by decide) (readHeader_touches env c)
  | bodyRead => exact readBody_touches env c
  | bodyWrite => exact writeBody_touches env c
  | write => exact hsends (.inl rfl) (processGet_touches env c)
  | pipeRead => exact .of_lists (readFromPipe_lists env c)
  | pipeWrite => exact .of_lists (writeFromPipe_lists c)
  | ioShuffle =>
    dsimp only
    split_ifs
    · exact hsends (.inr rfl) (ioShuffleSendfile_touches env c)
    · exact hsends (.inr rfl) (ioShuffle_touches env c)
  | done =>
    dsimp only
    unfold processDone
    split <;> exact .of_eq rfl rfl
  | timedOut => exact .of_eq rfl rfl
  | dead => exact .of_eq rfl rfl

/-- A round, up to `free_request`. -/
lemma serveOnce_touches (env : Env) (c : Request) :
    TouchesBy (RangeCall.madeIn c.status) env c (c.serveOnce env).1 := by
  have hflush : TouchesBy (RangeCall.madeIn c.status) env c (c.arm env).flushFirst.1 ∧
      ((c.arm env).flushFirst.1.status = c.status ∨ (c.arm env).flushFirst.1.status = .dead) := by
    have hr : Out.Replies (fun _ => False) (fun _ => False) (c.arm env).toOut (c.arm env).toOut.reqFlush.1 :=
      Out.reqFlush_replies _
    have hstatus := hr.status
    unfold flushFirst
    split_ifs
    · generalize (c.arm env).toOut.reqFlush = r at hstatus
      obtain ⟨o, fl⟩ := r
      cases fl with
      | error => exact ⟨.of_eq rfl rfl, .inr rfl⟩
      | blocked => exact ⟨.of_eq rfl rfl, hstatus⟩
      | left n => exact ⟨.of_eq rfl rfl, hstatus⟩
    · exact ⟨.of_eq rfl rfl, .inl rfl⟩
  unfold serveOnce
  generalize (c.arm env).flushFirst = r at hflush
  obtain ⟨d, ret⟩ := r
  obtain ⟨hflush, hstatus⟩ := hflush
  cases ret with
  | more =>
    refine hflush.trans ((handle_touches env d).mono fun k hk => ?_)
    obtain hs | hs := hstatus
    · exact hs ▸ hk
    · have hk : RangeCall.madeIn d.status k := hk
      rw [show d.status = .dead from hs] at hk
      obtain ⟨hk, -⟩ | ⟨hk, -⟩ := hk
      · exact absurd hk (by decide)
      · exact absurd hk (by decide)
  | blocked => exact hflush
  | done => exact hflush

lemma heedSigterm_lists (env : Env) (c : Request) : (c.heedSigterm env).lists = c.lists := by
  unfold heedSigterm
  split_ifs <;> rfl

/-- What `free_request` does to the ranges: beyond its flush it puts them back. -/
def freeCalls (env : Env) (c : Request) : List RangeCall :=
  if (c.serveOnce env).2 = .done ∧ (c.processRequest env).2 ≠ .ready then [.reset] else []

/-- A whole round, behind its handler. -/
lemma freeCalls_ranged (env : Env) (c : Request) : (c.processRequest env).1.cgiEnv = (c.serveOnce env).1.cgiEnv ∧
    Ranged (c.serveOnce env).1.ranges (c.freeCalls env)
      (if (c.processRequest env).2 = .free then [] else (c.processRequest env).1.ranges) := by
  have hlists := heedSigterm_lists env (c.serveOnce env).1
  unfold freeCalls
  generalize hround : c.processRequest env = r
  unfold processRequest at hround
  dsimp only at hround
  generalize (c.serveOnce env).1.heedSigterm env = d at hlists hround
  simp only [lists, Prod.mk.injEq] at hlists
  obtain ⟨hranges, hslots⟩ := hlists
  have hkept {e : Request} {p : Place} (he : e.lists = d.lists) (hp : p ≠ .free) :
      e.cgiEnv = (c.serveOnce env).1.cgiEnv ∧
        Ranged (c.serveOnce env).1.ranges [] (if p = .free then [] else e.ranges) := by
    simp only [lists, Prod.mk.injEq] at he
    rw [if_neg hp, he.1, hranges]
    exact ⟨he.2.trans hslots, .nil _⟩
  have hreset {e : Request} (he : e.cgiEnv = d.cgiEnv) :
      (e.endRequest env).2 ≠ .ready ∧ (e.endRequest env).1.cgiEnv = (c.serveOnce env).1.cgiEnv ∧
        Ranged (c.serveOnce env).1.ranges [.reset]
          (if (e.endRequest env).2 = .free then [] else (e.endRequest env).1.ranges) := by
    obtain ⟨es, code, -, ⟨-, hb⟩ | ⟨-, hb⟩⟩ := endRequest_cases env e
    · rw [hb]
      exact ⟨by simp, he.trans hslots, .one trivial rfl⟩
    · rw [hb]
      exact ⟨by simp, he.trans hslots, .one trivial rfl⟩
  cases hret : (c.serveOnce env).2 with
  | blocked =>
    rw [hret] at hround
    rw [← hround, if_neg (by simp)]
    exact hkept rfl (by simp)
  | more =>
    rw [hret] at hround
    rw [← hround, if_neg (by simp)]
    exact hkept rfl (by simp)
  | done =>
    rw [hret] at hround
    have hround : d.freeRequest env = r := hround
    have hended {e : Request} (hd : d.freeRequest env = e.endRequest env) (he : e.cgiEnv = d.cgiEnv) :
        r.1.cgiEnv = (c.serveOnce env).1.cgiEnv ∧
          Ranged (c.serveOnce env).1.ranges (if .done = Ret.done ∧ r.2 ≠ .ready then [.reset] else [])
            (if r.2 = .free then [] else r.1.ranges) := by
      obtain ⟨hplace, hsame⟩ := hreset he
      rw [← hround, hd, if_pos ⟨rfl, hplace⟩]
      exact hsame
    obtain ⟨-, -, n, -, he⟩ | ⟨-, -, -, he⟩ | ⟨-, -, -, he⟩ | ⟨-, he⟩ := freeRequest_cases env d
    · rw [← hround, he, if_neg (by simp)]
      exact hkept rfl (by simp)
    · exact hended he rfl
    · exact hended he rfl
    · exact hended he rfl

lemma processRequest_room (env : Env) (c : Request) :
    (c.processRequest env).1.cgiEnv.length ≤ max c.cgiEnv.length env.envRoom := by
  rw [(freeCalls_ranged env c).1]
  exact (serveOnce_touches env c).room

end Request
end Boa
