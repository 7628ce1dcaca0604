import Boa.Calls

/-! Where the ranges of a request lie once its file is on the way to the client. -/
namespace Boa
open Memory

/-- The request copies its file to the socket, range by range. -/
def Status.copies (s : Status) : Prop := s = .write ∨ s = .ioShuffle

instance (s : Status) : Decidable s.copies := inferInstanceAs (Decidable (_ ∨ _))

variable {env : Env} {c d : Request}

/-- The ranges lie in the file, and a file that is sent from memory is mapped. -/
structure Request.Covers (c : Request) (rs : List Range) : Prop where
  within : ∀ r ∈ rs, r.start ≤ r.stop ∧ r.stop < c.filesize
  size : c.filesize < 2 ^ 63
  mapped : c.status = .write → ∃ mem, c.dataMem = some mem ∧ mem.length = c.filesize

namespace Request

/-- A request that copies its file has a range, and all of them lie in the file. -/
def InFile (c : Request) : Prop := c.status.copies → c.ranges ≠ [] ∧ c.Covers c.ranges

/-- A routine leaves a request that goes on with its ranges in the file. -/
def Placed (r : Request × Ret) : Prop := r.2 ≠ .done → r.1.InFile

lemma placed_done : Placed (c, .done) := fun hn => absurd rfl hn

lemma InFile.of_not (hs : ¬ c.status.copies) : c.InFile := fun h => absurd h hs

lemma InFile.congr (h : c.InFile) (hs : d.status = c.status ∨ ¬ d.status.copies)
    (he : (d.ranges, d.filesize, d.dataMem) = (c.ranges, c.filesize, c.dataMem)) : d.InFile := by
  intro hd
  simp only [Prod.mk.injEq] at he
  obtain ⟨hr, hf, hm⟩ := he
  obtain hs | hs := hs
  · obtain ⟨h1, h2⟩ := h (hs ▸ hd)
    rw [← hr] at h1 h2
    refine ⟨h1, ?_, ?_, ?_⟩
    · rw [hf]
      exact h2.within
    · rw [hf]
      exact h2.size
    · rw [hf, hm, hs]
      exact h2.mapped
  · exact absurd hd hs

lemma InFile.replies {o : Out} (h : c.InFile) (ho : Out.Replies (fun _ => True) (fun _ => True) c.toOut o) :
    InFile { c with toOut := o } := by
  refine h.congr ?_ rfl
  obtain hs | hs := ho.status
  · exact .inl hs
  · refine .inr ?_
    show ¬ o.status.copies
    rw [hs]
    decide

lemma InFile.writes (h : c.InFile) (ms : List Msg) : (c.writes ms).InFile :=
  h.replies (Out.writes_replies c.toOut ms (fun _ _ => trivial) fun _ _ => trivial)

/-- The first range is done. -/
lemma completeResponse_placed (env : Env) (h : c.status.copies → c.Covers c.ranges.tail) :
    Placed (c.completeResponse env) := by
  unfold completeResponse
  split
  · exact placed_done
  · next r rest hr =>
    rw [hr] at h
    dsimp only
    split_ifs
    · cases rest with
      | nil =>
        have hdone : InFile { { c with ranges := [] }.writes printPartialContentDone with status := .done } :=
          .of_not (show ¬ Status.done.copies by decide)
        exact fun _ => hdone.replies (Out.reqFlush_replies _)
      | cons r' rest =>
        have hrest : InFile { c with ranges := r' :: rest } := fun hs =>
          ⟨List.cons_ne_nil r' rest, (h hs).within, (h hs).size, (h hs).mapped⟩
        exact fun _ => hrest.writes _
    · exact placed_done

lemma bytes_eq {r : Range} (hle : r.start ≤ r.stop) (hlt : r.stop < 2 ^ 63) :
    r.bytes = r.stop + 1 - r.start := by
  unfold Range.bytes
  omega

/-- The first range moves on by `n` bytes, no more than it has. -/
lemma moveRange_inFile {r : Range} {rest : List Range} (h : c.status.copies → c.Covers (r :: rest)) {n : ℕ}
    (hn : n ≤ r.bytes) (hne : r.stop + 1 ≠ r.start + n) : (c.moveRange r rest n).InFile := by
  intro hs
  obtain ⟨h1, h2, h3⟩ := h hs
  obtain ⟨hr, hrest⟩ := List.forall_mem_cons.mp h1
  rw [bytes_eq hr.1 (hr.2.trans h2)] at hn
  have hle : r.start + n ≤ r.stop := by omega
  exact ⟨List.cons_ne_nil _ _, List.forall_mem_cons.mpr ⟨⟨hle, hr.2⟩, hrest⟩, h2, h3⟩

lemma moveRange_covers {r : Range} {rest : List Range} (h : c.status.copies → c.Covers (r :: rest)) (n : ℕ) :
    (c.moveRange r rest n).status.copies →
      (c.moveRange r rest n).Covers (c.moveRange r rest n).ranges.tail := by
  intro hs
  obtain ⟨h1, h2, h3⟩ := h hs
  exact ⟨(List.forall_mem_cons.mp h1).2, h2, h3⟩

lemma InFile.covers (h : c.InFile) {rs : List Range} (hr : c.ranges = rs) : c.status.copies → c.Covers rs :=
  fun hs => hr ▸ (h hs).2

lemma InFile.tail (h : c.InFile) : c.status.copies → c.Covers c.ranges.tail := fun hs =>
  ⟨fun r hr => (h hs).2.within r (List.mem_of_mem_tail hr), (h hs).2.size, (h hs).2.mapped⟩

/-! ### Transfers -/

lemma processGet_placed (env : Env) (h : c.InFile) : Placed (c.processGet env) := by
  unfold processGet
  split
  · exact completeResponse_placed env h.tail
  · split
    · exact placed_done
    · next r rest hr =>
      dsimp only
      split_ifs
      · exact placed_done
      · split
        · exact fun _ => h.congr (.inl rfl) rfl
        · exact placed_done
        · exact placed_done
        · have hk : ∀ bs, (c.popSock.sendDirect bs).status.copies →
              (c.popSock.sendDirect bs).Covers (r :: rest) := fun bs hs =>
            ⟨(h.covers hr hs).within, (h.covers hr hs).size, (h.covers hr hs).mapped⟩
          split_ifs with hend
          · exact completeResponse_placed env (moveRange_covers (hk _) _)
          · exact fun _ => moveRange_inFile (hk _) ((min_le_right _ _).trans (min_le_left _ _)) hend

lemma shuffleWrite_placed (h : c.InFile) : Placed c.shuffleWrite := by
  unfold shuffleWrite
  dsimp only
  split_ifs
  · exact placed_done
  · exact fun _ => h.congr (.inl rfl) rfl
  · split
    · exact fun _ => h.congr (.inl rfl) rfl
    · exact fun _ => h.congr (.inl rfl) rfl
    · exact placed_done
    · split_ifs
      · exact fun _ => h.congr (.inl rfl) rfl
      · exact fun _ => h.congr (.inl rfl) rfl

lemma shuffleRead_placed (env : Env) (h : c.InFile) {r : Range} {rest : List Range} (hr : c.ranges = r :: rest)
    {n : ℕ} (hn : n ≤ r.bytes) : Placed (c.shuffleRead env r rest n) := by
  have hread : ∀ d : Request, d.status = c.status →
      (d.ranges, d.filesize, d.dataMem) = (c.ranges, c.filesize, c.dataMem) → d.InFile :=
    fun d hs he => h.congr (.inl hs) he
  unfold shuffleRead
  split_ifs
  · exact placed_done
  · dsimp only
    split
    · split_ifs
      · exact fun _ => hread _ rfl rfl
      · exact shuffleWrite_placed (hread _ rfl rfl)
    · split_ifs
      · exact fun _ => hread _ rfl rfl
      · exact shuffleWrite_placed (hread _ rfl rfl)
    · exact placed_done
    · exact shuffleWrite_placed (hread _ rfl rfl)
    · next bs hbs =>
      have hk : (c.restartRead.popFile.bufferData bs).status.copies →
          (c.restartRead.popFile.bufferData bs).Covers (r :: rest) := fun hs =>
        ⟨(h.covers hr hs).within, (h.covers hr hs).size, (h.covers hr hs).mapped⟩
      have hlen : bs.length ≤ r.bytes := (fit_data hbs).1.trans hn
      split_ifs with hend
      · refine completeResponse_placed env fun hs => ?_
        have htail := moveRange_covers hk bs.length hs
        exact ⟨htail.within, htail.size, htail.mapped⟩
      · exact shuffleWrite_placed ((moveRange_inFile hk hlen hend).congr (.inl rfl) rfl)

lemma ioShuffle_placed (env : Env) (h : c.InFile) : Placed (c.ioShuffle env) := by
  unfold ioShuffle
  split_ifs
  · exact completeResponse_placed env h.tail
  · split
    · exact placed_done
    · next r rest hr =>
      dsimp only
      split_ifs
      · exact shuffleRead_placed env h hr (min_le_right _ _)
      · exact shuffleWrite_placed h

lemma sentRange_placed (env : Env) (ht : c.status.copies → c.Covers c.ranges.tail)
    (h : ∀ r rest, c.ranges = r :: rest → ¬ r.stop + 1 ≤ r.start → c.InFile) : Placed (c.sentRange env) := by
  unfold sentRange
  split
  · exact placed_done
  · next r rest hr =>
    split_ifs with hend
    · exact completeResponse_placed env ht
    · exact fun _ => h r rest hr hend

lemma nextSend_length {want : ℕ} {bs : Bytes} (h : c.nextSend want = .sent bs) : bs.length ≤ want := by
  unfold nextSend at h
  split at h
  · cases h
    exact List.length_take_le _ _
  · next r hr =>
    exact absurd h (hr bs)

lemma ioShuffleSendfile_placed (env : Env) (h : c.InFile) : Placed (c.ioShuffleSendfile env) := by
  unfold ioShuffleSendfile
  split_ifs
  · exact completeResponse_placed env h.tail
  · split
    · exact placed_done
    · next r rest hr =>
      dsimp only
      split_ifs
      · exact sentRange_placed env h.tail fun _ _ _ _ => h
      · exact placed_done
      · split
        · exact ioShuffle_placed env (h.congr (.inl rfl) rfl)
        · exact fun _ => h.congr (.inl rfl) rfl
        · exact fun _ => h.congr (.inl rfl) rfl
        · exact fun _ => h.congr (.inl rfl) rfl
        · exact placed_done
        · next bs _ hbs =>
          split_ifs
          · exact placed_done
          have hk : (c.popSend.sendDirect bs).status.copies →
              (c.popSend.sendDirect bs).Covers (r :: rest) := fun hs =>
            ⟨(h.covers hr hs).within, (h.covers hr hs).size, (h.covers hr hs).mapped⟩
          have hlen : bs.length ≤ r.bytes := (nextSend_length hbs).trans (min_le_left _ _)
          refine sentRange_placed env (moveRange_covers hk _) fun r' rest' hr' hend => ?_
          cases hr'
          exact moveRange_inFile hk hlen fun he => hend he.le

/-! ### The start of a transfer -/

lemma startTransfer_placed (env : Env) (h : c.InFile) : Placed (c.startTransfer env) := by
  unfold startTransfer
  split_ifs
  · exact completeResponse_placed env h.tail
  · unfold firstChunk
    split
    · next mem r rest _ hr =>
      have hk : ∀ bs, (c.bufferData bs).status.copies → (c.bufferData bs).Covers (r :: rest) := fun bs hs =>
        ⟨(h.covers hr hs).within, (h.covers hr hs).size, (h.covers hr hs).mapped⟩
      dsimp only
      split_ifs with hroom hbus hend
      · exact placed_done
      · exact completeResponse_placed env (moveRange_covers (hk _) _)
      · have hle : min (bufferSize - c.bufferEnd) (r.bytes % 2 ^ 32) ≤ r.bytes :=
          (min_le_right _ _).trans (Nat.mod_le _ _)
        refine fun _ hs => moveRange_inFile (hk _) hle (fun he => ?_) hs
        obtain ⟨hstart, hstop⟩ := (h.covers hr hs).within r List.mem_cons_self
        have hbytes := bytes_eq hstart (hstop.trans (h.covers hr hs).size)
        have hmod := Nat.mod_le r.bytes (2 ^ 32)
        omega
      · exact fun _ => h
    · exact fun _ => h

/-- What is left of a range lies in the file. -/
lemma fixupRanges_within {filesize : ℕ} {rs : List Range} :
    ∀ r ∈ fixupRanges filesize rs, r.start ≤ r.stop ∧ r.stop < filesize := by
  intro r hr
  unfold fixupRanges at hr
  split_ifs at hr with h0
  · simp at hr
  · obtain ⟨r', -, hr⟩ := List.mem_filterMap.mp hr
    have hstop : (if r'.stop = 2 ^ 32 - 1 ∨ filesize ≤ r'.stop then filesize - 1 else r'.stop) < filesize := by
      split_ifs <;> omega
    unfold fixupRange at hr
    dsimp only at hr
    generalize (if r'.stop = 2 ^ 32 - 1 ∨ filesize ≤ r'.stop then filesize - 1 else r'.stop) = stop at hr hstop
    split_ifs at hr with h1 h2 h2
    · cases hr
      exact ⟨not_lt.mp fun hlt => h2 (.inr hlt), by show filesize - 1 < filesize; omega⟩
    · cases hr
      exact ⟨not_lt.mp fun hlt => h2 (.inr hlt), hstop⟩

lemma sendRRequestOk_inFile (env : Env) (h : c.InFile) : (c.sendRRequestOk env).InFile := by
  have hstatus : InFile { c with responseStatus := 200 } := h.congr (.inl rfl) rfl
  unfold sendRRequestOk
  dsimp only
  split_ifs
  · exact hstatus
  all_goals exact hstatus.writes _

lemma respond_placed (env : Env) (h : c.status.copies → c.Covers c.ranges) : Placed (c.respond env) := by
  unfold respond
  split
  · next r rest hr =>
    have hne : c.ranges ≠ [] := by
      rw [hr]
      exact List.cons_ne_nil r rest
    have hin : InFile { c with responseStatus := 206 } :=
      fun hs => ⟨hne, (h hs).within, (h hs).size, (h hs).mapped⟩
    unfold sendRPartialContent
    exact startTransfer_placed env (hin.writes _)
  · next hr =>
    unfold rangesFixup
    dsimp only
    split_ifs with hnil
    · exact placed_done
    · refine startTransfer_placed env (sendRRequestOk_inFile env fun hs => ⟨hnil, ?_, (h hs).size, (h hs).mapped⟩)
      exact fixupRanges_within

lemma attachData_covers {f : File} (hsize : c.filesize = f.size)
    (h : ∀ r ∈ c.ranges, r.start ≤ r.stop ∧ r.stop < c.filesize) :
    (c.attachData env f).Covers (c.attachData env f).ranges := by
  have hlt : c.filesize < 2 ^ 63 := hsize ▸ f.size_lt
  unfold attachData
  split_ifs
  · exact ⟨h, hlt, nofun⟩
  · exact ⟨h, hlt, fun _ => ⟨f.data, rfl, hsize.symm⟩⟩

/-! ### Files and directories -/

lemma serveFile_placed (env : Env) (c : Request) (f : File) (path : Bytes) :
    Placed (c.serveFile env f path) := by
  unfold serveFile
  split_ifs
  · exact placed_done
  unfold serveRegular
  dsimp only
  split_ifs with _ hzero _ hranges
  · exact placed_done
  · exact placed_done
  · exact placed_done
  · unfold rangesFixup
    dsimp only
    split_ifs
    · exact placed_done
    · exact respond_placed env fun _ => attachData_covers rfl fixupRanges_within
  · refine respond_placed env fun _ => attachData_covers rfl ?_
    rw [show ({ c.log (.serve path) with filesize := f.size, lastModified := f.mtime } : Request).ranges = []
      from not_not.mp hranges]
    simp

lemma initCgi_placed (env : Env) (c : Request) : Placed (c.initCgi env) := by
  intro hn
  have hs := initCgi_more hn
  refine .of_not ?_
  rw [hs]
  decide

lemma rebuildCache_ne_started {dir : File} {name : Bytes} {r : Ret} (c : Request) :
    c.rebuildCache env dir name ≠ (d, .started r) := by
  unfold rebuildCache
  split
  · nofun
  · split <;> nofun

lemma makeDir_placed {dir : File} {r : Ret} (h : c.makeDir env dir = (d, .started r)) : Placed (d, r) := by
  unfold makeDir at h
  dsimp only at h
  split_ifs at h
  · cases h
    exact placed_done
  · cases h
    exact initCgi_placed env _
  · split at h
    · unfold getCachedirFile at h
      dsimp only at h
      split at h
      · exact absurd h (rebuildCache_ne_started c)
      · split_ifs at h
        · cases h
        · exact absurd h (rebuildCache_ne_started _)
    · cases h

lemma getDir_placed {dir : File} {r : Ret} (h : c.getDir env dir = (d, .started r)) : Placed (d, r) := by
  unfold getDir at h
  split at h
  · exact makeDir_placed h
  · next index _ =>
    dsimp only at h
    generalize (if env.cfg.gunzip then 3 else 0) = k at h
    split at h
    · cases h
    · split at h
      · cases h
      · cases h
      · cases h
      · split_ifs at h
        · split at h
          · unfold gunzipIndex at h
            dsimp only at h
            split_ifs at h
            · cases h
              exact placed_done
            · cases h
              exact initCgi_placed env _
          · exact makeDir_placed h
        · exact makeDir_placed h

lemma serveOpened_placed (env : Env) (c : Request) (f : File) : Placed (c.serveOpened env f) := by
  unfold serveOpened
  split_ifs
  · exact placed_done
  · unfold serveDirectory
    dsimp only
    split_ifs
    · exact placed_done
    · split
      · exact placed_done
      · next d r he => exact getDir_placed he
      · exact serveFile_placed env _ _ _
  · exact serveFile_placed env c f _

lemma gunzipDocument_placed {r : Request × Ret} (h : c.gunzipDocument env = some r) : Placed r := by
  unfold gunzipDocument at h
  split_ifs at h
  · cases h
    exact placed_done
  dsimp only at h
  split at h
  · cases h
  · split_ifs at h
    · cases h
      exact placed_done
    · cases h
      exact initCgi_placed env _

lemma initGet_placed (env : Env) (c : Request) : Placed (c.initGet env) := by
  unfold initGet
  split
  · exact serveOpened_placed env _ _
  · split
    · exact serveOpened_placed env _ _
    · split_ifs
      · split
        · next r hr => exact gunzipDocument_placed hr
        · exact placed_done
      · exact placed_done

/-! ### Headers -/

lemma processHeaderEnd_placed (env : Env) (hs : ¬ c.status.copies) : Placed (c.processHeaderEnd env) := by
  unfold processHeaderEnd
  obtain ⟨uri, query, host, he | ⟨d, he, -⟩⟩ := acceptUri_cases env (c.log .headerEnd)
  · rw [he]
    dsimp only
    unfold dispatchUri
    obtain ⟨hr, hl⟩ | ⟨hr, -⟩ := translateUri_translated env
      { c.log .headerEnd with requestUri := uri, queryString := query, host := host }
    · generalize translateUri env _ = r at hr hl
      obtain ⟨d, ok⟩ := r
      cases hr
      dsimp only
      split_ifs
      · have hstatus : (d.setPostDataFd env.tempFd).status = c.status := by
          obtain ⟨_, _, _, _, _, _, rfl, -⟩ := hl
          unfold setPostDataFd
          split_ifs <;> rfl
        unfold openPostFile
        dsimp only
        split_ifs
        · exact placed_done
        · exact placed_done
        · refine fun _ => .of_not ?_
          show ¬ (d.setPostDataFd env.tempFd).status.copies
          rw [hstatus]
          exact hs
      · exact initCgi_placed env d
      · exact initGet_placed env _
    · generalize translateUri env _ = r at hr
      obtain ⟨d, ok⟩ := r
      cases hr
      exact placed_done
  · rw [he]
    exact placed_done

lemma endHeader_placed (env : Env) (hs : ¬ c.status.copies) : Placed (c.endHeader env) := by
  have h := processHeaderEnd_placed env hs
  obtain ⟨-, he⟩ | ⟨-, he⟩ | ⟨-, -, he⟩ := endHeader_cases env c
  · rw [he]
    exact h
  · rw [he]
    exact h
  · rw [he]
    obtain ⟨hl, hend, size, pos, hb | ⟨e, hb, -⟩⟩ := startBody_cases env (c.processHeaderEnd env).1
    · rw [hb]
      exact fun _ => .of_not (show ¬ Status.bodyWrite.copies by decide)
    · rw [hb]
      exact placed_done

end Request

lemma Status.inHeader.not_copies {s : Status} (h : s.inHeader) : ¬ s.copies := by
  rintro (rfl | rfl)
  · exact absurd h (by decide)
  · exact absurd h (by decide)

open Request in
lemma ByteStep.placed {uc : UInt8} {ret : Ret} (h : ByteStep env c uc d (some ret)) : Placed (d, ret) := by
  have hone : ¬ Status.oneLf.copies := by decide
  cases h with
  | illegal => exact placed_done
  | tooLong => exact placed_done
  | optionStop => exact placed_done
  | loglineStop => exact placed_done
  | @short d hi hs hl hd =>
    refine processHeaderEnd_placed env ?_
    obtain ⟨_, _, _, _, _, _, rfl, -⟩ := hd
    show ¬ (c.advance uc).status.copies
    rw [hs]
    exact hone
  | finish hi hs =>
    refine endHeader_placed env ?_
    rw [hs]
    decide

namespace Request

lemma scanHeader_placed (env : Env) (c : Request) (bs : Bytes) {ret : Ret}
    (h : (scanHeader env c bs).2 = some ret) : Placed ((scanHeader env c bs).1, ret) := by
  induction bs generalizing c with
  | nil => cases h
  | cons uc bs ih =>
    have hstep := headerByte_step env c uc
    unfold scanHeader at h ⊢
    generalize c.headerByte env uc = r at h hstep ⊢
    obtain ⟨d, _ | ret'⟩ := r
    · exact ih d h
    · cases h
      exact hstep.placed

lemma readHeader_placed (env : Env) (h : Parsing False c) : Placed (c.readHeader env) := by
  have hscan := (scanHeader_ended env h (c.clientStream.drop c.parsePos)).1
  have hplaced : ∀ ret, (scanHeader env c (c.clientStream.drop c.parsePos)).2 = some ret → Placed _ :=
    fun ret => scanHeader_placed env c (c.clientStream.drop c.parsePos)
  unfold readHeader
  generalize scanHeader env c (c.clientStream.drop c.parsePos) = r at hscan hplaced
  obtain ⟨d, _ | ret⟩ := r
  · have hhead : d.InFile := .of_not (hscan rfl).header.not_copies
    dsimp only
    split_ifs
    · unfold readMore
      dsimp only
      split_ifs
      · exact placed_done
      · split
        · exact fun _ => hhead.congr (.inl rfl) rfl
        · exact fun _ => hhead.congr (.inl rfl) rfl
        · exact placed_done
        · exact placed_done
        · exact fun _ => hhead.congr (.inl rfl) rfl
    · exact fun _ => hhead
  · exact hplaced ret rfl

/-! ### Bodies -/

lemma readBody_placed (env : Env) (hs : c.status = .bodyRead) : Placed (c.readBody env) := by
  have hstill : ¬ c.status.copies := by
    rw [hs]
    decide
  have hnext : ¬ Status.bodyWrite.copies := by decide
  unfold readBody
  dsimp only
  split_ifs
  · exact fun _ => .of_not hnext
  · split
    · exact fun _ => .of_not hstill
    · exact placed_done
    · exact placed_done
    · exact placed_done
    · exact fun _ => .of_not hnext

lemma writeBody_placed (env : Env) (hs : c.status = .bodyWrite) : Placed (c.writeBody env) := by
  have hstill : ¬ c.status.copies := by
    rw [hs]
    decide
  have hnext : ¬ Status.bodyRead.copies := by decide
  unfold writeBody
  dsimp only
  split_ifs
  · exact initCgi_placed env _
  · exact fun _ => .of_not hnext
  · split
    · exact fun _ => .of_not hstill
    · exact fun _ => .of_not hstill
    · exact placed_done
    · exact fun _ => .of_not hstill

end Request

/-! ### Pipes -/

/-- The status stays, or is one at which no file is copied. -/
def Aside (c d : Request) : Prop := d.status = c.status ∨ ¬ d.status.copies

lemma Aside.trans {e : Request} (h : Aside c d) (h' : Aside d e) : Aside c e := by
  obtain h' | h' := h'
  · unfold Aside
    rw [h']
    exact h
  · exact .inr h'

lemma Refused.aside (h : Refused c d) : Aside c d := by
  obtain ⟨o, code, rfl, -, ho⟩ := h
  obtain hs | hs := ho.status
  · exact .inl hs
  · refine .inr ?_
    show ¬ o.status.copies
    rw [hs]
    decide

namespace Request

lemma pokeNul_aside (c : Request) (i : ℕ) : Aside c (c.pokeNul i) := by
  unfold pokeNul
  split_ifs <;> exact .inl rfl

lemma aside_replies {o : Out} (ho : Out.Replies (fun _ => True) (fun _ => True) c.toOut o) :
    Aside c { c with toOut := o } := by
  obtain hs | hs := ho.status
  · exact .inl hs
  · refine .inr ?_
    show ¬ o.status.copies
    rw [hs]
    decide

lemma sendRRequestOk_aside (env : Env) (c : Request) : Aside c (c.sendRRequestOk env) := by
  have hstatus : Aside c { c with responseStatus := 200 } := .inl rfl
  have hwrites : ∀ ms, Aside c (({ c with responseStatus := 200 } : Request).writes ms) := fun ms =>
    hstatus.trans (aside_replies (Out.writes_replies _ ms (fun _ _ => trivial) fun _ _ => trivial))
  unfold sendRRequestOk
  dsimp only
  split_ifs
  · exact hstatus
  all_goals exact hwrites _

lemma cgiOk_aside (env : Env) (c : Request) (k : ℕ) : Aside c (c.cgiOk env k).1 := by
  have h : Aside c (if (c.sendRRequestOk env).method = .head
      then { c.sendRRequestOk env with headerEnd := ⟨.buffer, k⟩, cgiStatus := .done }
      else c.sendRRequestOk env) := by
    split_ifs
    · exact (sendRRequestOk_aside env c).trans (.inl rfl)
    · exact sendRRequestOk_aside env c
  unfold cgiOk
  dsimp only
  generalize (if (c.sendRRequestOk env).method = .head
      then { c.sendRRequestOk env with headerEnd := ⟨.buffer, k⟩, cgiStatus := .done }
      else c.sendRRequestOk env) = d at h ⊢
  have hreset : Aside c { d.log (.withdrawn d.pending) with bufferStart := 0, bufferEnd := 0 } := h.trans (.inl rfl)
  have hmerge : Aside c d.cgiMerge := h.trans (.inl rfl)
  split
  · exact hreset.trans (sendRError_refused env _).aside
  · exact hmerge.trans (aside_replies (Out.reqFlush_replies _))

lemma processCgiHeader_aside (env : Env) (c : Request) : Aside c (c.processCgiHeader env).1 := by
  have h : Aside c (if c.cgiStatus = .done then c else { c with cgiStatus := .buffer }) := by
    split_ifs <;> exact .inl rfl
  unfold processCgiHeader
  dsimp only
  generalize (if c.cgiStatus = .done then c else { c with cgiStatus := .buffer }) = d at h ⊢
  generalize cstr (List.drop d.headerLine.off d.buffer) = buf
  split
  · exact h.trans (sendRBadGateway_refused env d).aside
  split
  · exact h.trans (.inl rfl)
  split
  · exact h.trans (.inl rfl)
  split
  · exact .inr (show ¬ Status.done.copies by decide)
  · exact h.trans (cgiOk_aside env d _)

lemma writeFromPipe_aside (c : Request) : Aside c c.writeFromPipe.1 := by
  have hread : ¬ Status.pipeRead.copies := by decide
  have hdead : ¬ Status.dead.copies := by decide
  unfold writeFromPipe
  dsimp only
  split_ifs
  · exact .inl rfl
  · exact .inr hread
  · split
    · exact .inl rfl
    · exact .inl rfl
    · exact .inr hdead
    · split_ifs
      · exact .inr hread
      · exact .inl rfl

lemma readFromPipe_aside (env : Env) (c : Request) : Aside c (c.readFromPipe env).1 := by
  have hwrite : ¬ Status.pipeWrite.copies := by decide
  have hdead : ¬ Status.dead.copies := by decide
  unfold readFromPipe
  dsimp only
  split_ifs
  · have hpoke : Aside c (({ c with cgiStatus := .buffer } : Request).pokeNul c.headerEnd.off) := pokeNul_aside _ _
    exact hpoke.trans (processCgiHeader_aside env _)
  · exact .inr hwrite
  · split
    · exact .inl rfl
    · exact .inl rfl
    · exact .inr hdead
    · unfold pipeEof
      dsimp only
      have hpoke : Aside c { c.popFile.pokeNul c.headerEnd.off with status := .pipeWrite, cgiStatus := .done } :=
        .inr hwrite
      split
      · exact hpoke.trans (processCgiHeader_aside env _)
      · exact hpoke
    · next bs _ =>
      have hstore : Aside c (c.popFile.pipeStore bs) := pokeNul_aside _ _
      unfold pipeData
      dsimp only
      split
      · exact hstore.trans (Aside.trans (.inl rfl) (writeFromPipe_aside _))
      · split
        · exact hstore
        · exact hstore.trans (Aside.trans (.inl rfl) (processCgiHeader_aside env _))

/-! ### Rounds -/

lemma aside_placed {r : Request × Ret} (h : Aside c r.1) (hs : ¬ c.status.copies) : Placed r := by
  refine fun _ => .of_not ?_
  obtain h | h := h
  · rw [h]
    exact hs
  · exact h

lemma processDone_placed (hs : c.status = .done) : Placed c.processDone := by
  have hstill : ¬ c.status.copies := by
    rw [hs]
    decide
  have hflush : Aside c { c with toOut := c.toOut.reqFlush.1 } := aside_replies (Out.reqFlush_replies _)
  unfold processDone
  generalize c.toOut.reqFlush = r at hflush
  obtain ⟨o, fl⟩ := r
  cases fl with
  | error => exact placed_done
  | blocked => exact aside_placed hflush hstill
  | left n =>
    cases n with
    | zero => exact placed_done
    | succ n => exact aside_placed hflush hstill

/-- A round behind the header. -/
lemma handle_placed (env : Env) (h : c.InFile) (hs : ¬ c.status.inHeader) : Placed (c.handle env) := by
  unfold handle
  cases hstatus : c.status with
  | readHeader => exact absurd (by rw [hstatus]; decide) hs
  | oneCr => exact absurd (by rw [hstatus]; decide) hs
  | oneLf => exact absurd (by rw [hstatus]; decide) hs
  | twoCr => exact absurd (by rw [hstatus]; decide) hs
  | bodyRead => exact readBody_placed env hstatus
  | bodyWrite => exact writeBody_placed env hstatus
  | write => exact processGet_placed env h
  | pipeRead => exact aside_placed (readFromPipe_aside env c) (by rw [hstatus]; decide)
  | pipeWrite => exact aside_placed (writeFromPipe_aside c) (by rw [hstatus]; decide)
  | ioShuffle =>
    dsimp only
    split_ifs
    · exact ioShuffleSendfile_placed env h
    · exact ioShuffle_placed env h
  | done => exact processDone_placed hstatus
  | timedOut => exact placed_done
  | dead => exact placed_done

lemma flushFirst_placed (h : c.InFile) : Placed c.flushFirst := by
  have hflush : InFile { c with toOut := c.toOut.reqFlush.1 } := h.replies (Out.reqFlush_replies _)
  unfold flushFirst
  split_ifs
  · generalize c.toOut.reqFlush = r at hflush
    obtain ⟨o, fl⟩ := r
    cases fl with
    | error => exact placed_done
    | blocked => exact fun _ => hflush
    | left n => exact fun _ => hflush
  · exact fun _ => h

/-- One round of a request, up to the return value of its handler. -/
lemma serveOnce_placed (env : Env) (hw : Whole False c) (h : c.InFile) : Placed (c.serveOnce env) := by
  obtain ⟨-, hp, he⟩ | ⟨hh, -⟩ := serveOnce_cases env hw
  · rw [he]
    exact readHeader_placed env hp
  · by_cases hlive : c.status < .timedOut
    · obtain ⟨-, hmore⟩ := flushFirst_ended (hw.live hlive env False.elim) hlive
      have hflush : Placed (c.arm env).flushFirst := flushFirst_placed (h.congr (.inl rfl) rfl)
      unfold serveOnce
      generalize (c.arm env).flushFirst = r at hmore hflush
      obtain ⟨d, ret⟩ := r
      cases ret with
      | blocked => exact hflush
      | done => exact hflush
      | more =>
        have hst : d.status = c.status := (hmore rfl).1
        exact handle_placed env (hflush (by simp)) (hst ▸ hh)
    · rw [serveOnce_dead hlive]
      exact placed_done

/-- What `free_request` keeps copies no file. -/
lemma freeRequest_inFile (env : Env) (h : Over False c) (hp : (c.freeRequest env).2 ≠ .free) :
    (c.freeRequest env).1.InFile := by
  obtain hs | hs := freeRequest_status h hp
  · exact .of_not (by rw [hs]; decide)
  · exact .of_not (by rw [hs]; decide)

lemma processRequest_inFile (env : Env) (hw : Whole False c) (h : c.InFile)
    (hp : (c.processRequest env).2 ≠ .free) : (c.processRequest env).1.InFile := by
  have hend : Ended False (c.serveOnce env) := serveOnce_ended hw False.elim False.elim
  have hplaced := serveOnce_placed env hw h
  have hterm : ∀ d : Request, d.InFile → (d.heedSigterm env).InFile := by
    intro d hd
    unfold heedSigterm
    split_ifs
    · exact hd.congr (.inl rfl) rfl
    · exact hd
  unfold processRequest at hp ⊢
  dsimp only at hp ⊢
  generalize c.serveOnce env = r at hend hplaced hp ⊢
  obtain ⟨d, ret⟩ := r
  cases ret with
  | blocked => exact hterm d (hplaced (by simp))
  | more => exact hterm d (hplaced (by simp))
  | done => exact freeRequest_inFile env ((hend.2 rfl).heedSigterm env) hp

lemma getRequest_inFile (env : Env) (peer : Peer) (old : Request) : (old.getRequest env peer).InFile := by
  unfold getRequest
  dsimp only
  split_ifs
  · exact .of_not (show ¬ Status.done.copies by decide)
  · exact .of_not (show ¬ Status.readHeader.copies by decide)

end Request

/-- In every state of a connection, a request that copies its file has a range left, and all of
them lie in the file. -/
lemma reach_inFile {P : Label → Request → Prop} {p : Place} (h : Reach P c p) : p ≠ .free → c.InFile := by
  induction h with
  | accept env peer old hp => exact fun _ => Request.getRequest_inFile env peer old
  | pass env h hp ih =>
    have hwhole := (reach_whole (S := False) False.elim h).1 (by simp)
    exact Request.processRequest_inFile env hwhole (ih (by simp))
  | wake w h hp ih =>
    intro _
    cases w
    · exact ih (by simp)
    · exact .of_not (show ¬ Status.timedOut.copies by decide)
    · exact .of_not (show ¬ Status.dead.copies by decide)

end Boa
