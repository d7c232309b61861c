/-
What a store reports.

A request is noticed by log records.  Looking up an offset in the section decodes it and
says so at the first lookup only, a failure as much as a success, until the store is
cleared.  Looking up any other offset keeps nothing, so it is reported again each time.
The theorem this file exists for is `reported_once`.
-/
import LineTable.Proofs.Neighbours
import LineTable.Proofs.StoreHistory

namespace LineTable

/-- A log limited to debug records leaves out nothing. -/
theorem Log.filter_shown_debug (log : Log) : log.filter (Record.shown .debug) = log := by
  apply List.filter_eq_self.2
  rintro ⟨level, message⟩ -
  cases level <;> rfl

/-- A program is decoded under the offset that it was sought at. -/
theorem LineSection.offset_of_decode {s : LineSection} {offset : UInt64} {p : Program}
    (hdecode : s.decode offset = .ok p) : p.header.offset = offset := by
  rw [decode] at hdecode
  split at hdecode
  · rename_i bytes _
    rw [read_build_movedTo] at hdecode
    cases hstart : Header.read s.endian 0 bytes >>= fun found =>
        Program.build found.1 s.endian found.2 with
    | error cause =>
      rw [hstart] at hdecode
      contradiction
    | ok start =>
      rw [hstart] at hdecode
      obtain rfl := Except.ok.inj hdecode
      rfl
  · contradiction

namespace ProgramStore

/-- What a log without a limit says about a request. -/
def notice (s : ProgramStore) : Request → Log
  | .lookup offset => (s.lookup offset).log
  | .decode offset =>
    match s.lines.decode offset with
    | .ok program => [program.record]
    | .error _ => []
  | .clear => [s.clearRecord]
  | .counts => []

/-- What a log limited to `limit` shows of each request in turn. -/
def transcript (limit : Log.Level) (s : ProgramStore) : List Request → List Log
  | [] => []
  | request :: rest =>
    (s.notice request).filter (Log.Record.shown limit) :: (s.after request).transcript limit rest

variable {s : ProgramStore} {lines : LineSection} {limit : Log.Level}

theorem length_transcript (s : ProgramStore) (requests : List Request) :
    (s.transcript limit requests).length = requests.length := by
  induction requests generalizing s with
  | nil => rfl
  | cons request rest ih =>
    rw [transcript, List.length_cons, List.length_cons, ih]

/-- Later requests are noticed by the store that the earlier ones leave behind. -/
theorem transcript_append (s : ProgramStore) (earlier later : List Request) :
    s.transcript limit (earlier ++ later) =
      s.transcript limit earlier ++ (s.serve earlier).transcript limit later := by
  induction earlier generalizing s with
  | nil => rfl
  | cons request rest ih =>
    rw [List.cons_append, transcript, transcript, List.cons_append, ih]
    rfl

theorem getElem?_transcript (s : ProgramStore) (earlier later : List Request)
    (request : Request) :
    (s.transcript .debug (earlier ++ request :: later))[earlier.length]? =
      some ((s.serve earlier).notice request) := by
  rw [transcript_append, List.getElem?_append_right (by rw [length_transcript]),
    length_transcript, Nat.sub_self, transcript, Log.filter_shown_debug]
  rfl

/-! ### Lookups -/

variable {offsets : UInt64 → Prop} {offset : UInt64}

theorem KeptFor.notice_outside (hs : s.KeptFor lines offsets) (hout : lines.size ≤ offset.toNat) :
    s.notice (.lookup offset) = [s.outsideRecord offset] := by
  have hnot : ¬ s.lines.contains offset := by
    rw [hs.lines_eq]
    exact LineSection.not_contains_iff.2 hout
  rw [notice, lookup_outside hnot]

theorem KeptFor.notice_kept (hs : s.KeptFor lines offsets) (hin : offset.toNat < lines.size)
    (hkept : offsets offset) : s.notice (.lookup offset) = [] := by
  have hcontains : lines.contains offset := LineSection.contains_iff.2 hin
  have hkey : offset ∈ s.keys := (hs.mem_keys offset).2 ⟨hcontains, hkept⟩
  obtain ⟨outcome, houtcome⟩ := Option.isSome_iff_exists.1 (hs.filled.outcome?_isSome hkey)
  rw [notice, lookup_held (hs.lines_eq ▸ hcontains) houtcome]

theorem KeptFor.notice_new (hs : s.KeptFor lines offsets) (hin : offset.toNat < lines.size)
    (hnew : ¬ offsets offset) :
    s.notice (.lookup offset) = [recordOf offset (lines.decode offset)] := by
  obtain rfl := hs.lines_eq
  have hcontains : s.lines.contains offset := LineSection.contains_iff.2 hin
  have hkey : offset ∉ s.keys := by
    intro hkey
    exact hnew ((hs.mem_keys offset).1 hkey).2
  rw [notice, lookup_new hcontains (outcome?_eq_none hkey)]

/-- Whatever was asked before and is asked afterwards, a lookup outside the section is
noticed by one warning.  A lookup in the section is noticed by one record, which says how
decoding went, if its offset was not sought since the last clearing, and by none if it
was. -/
theorem reported_once (lines : LineSection) (earlier later : List Request) (offset : UInt64) :
    let place := Number.hex offset.toNat
    let shown :=
      ((ofSection lines).transcript .debug (earlier ++ .lookup offset :: later))[earlier.length]?
    (lines.size ≤ offset.toNat → shown = some
      [⟨.warn, s!"No line program at {place}: outside .debug_line ({lines.size} bytes)"⟩]) ∧
    (offset.toNat < lines.size → Sought earlier offset → shown = some []) ∧
    (offset.toNat < lines.size → ¬ Sought earlier offset →
      (∀ p, lines.decode offset = .ok p →
        let rows := p.rows.length
        let files := p.definedFiles.length
        shown = some
          [⟨.debug, s!"Decoded line program at {place}: {rows} rows, {files} defined files"⟩]) ∧
      ∀ cause, lines.decode offset = .error cause → shown = some
        [⟨.warn, s!"No line program at {place}: {cause.message}"⟩]) := by
  intro place shown
  have hkept := keptFor_serve lines earlier
  have hshown : shown = some (((ofSection lines).serve earlier).notice (.lookup offset)) :=
    getElem?_transcript (ofSection lines) earlier later (.lookup offset)
  refine ⟨fun hout => ?_, fun hin hsought => ?_,
    fun hin hnew => ⟨fun p hp => ?_, fun cause hc => ?_⟩⟩
  · rw [hshown, hkept.notice_outside hout, outsideRecord, hkept.lines_eq]
  · rw [hshown, hkept.notice_kept hin hsought]
  · rw [hshown, hkept.notice_new hin hnew, hp, recordOf, Program.record,
      LineSection.offset_of_decode hp]
  · rw [hshown, hkept.notice_new hin hnew, hc, recordOf]

/-- A program and behind it a byte that is none, looked up before and after a clearing. -/
def reportedLines : LineSection := ⟨LineSection.rowsUnit 14 ++ [0xFF], .little⟩

def reportedRequests : List Request :=
  [.lookup 0, .decode 0, .lookup 0, .lookup 28, .lookup 29, .clear, .lookup 0]

theorem reported_once_sample :
    let shown := (ofSection reportedLines).transcript .debug reportedRequests
    shown[0]? = some [⟨.debug, "Decoded line program at 0x0: 2 rows, 0 defined files"⟩] ∧
      shown[2]? = some [] ∧
      shown[3]? = some [⟨.warn, "No line program at 0x1c: malformed line number program: " ++
        "Hit the end of input before it was expected"⟩] ∧
      shown[4]? = some [⟨.warn, "No line program at 0x1d: outside .debug_line (29 bytes)"⟩] ∧
      shown[6]? = some [⟨.debug, "Decoded line program at 0x0: 2 rows, 0 defined files"⟩] := by
  intro shown
  have hcounts : (reportedLines.decode 0).toOption.map
      (fun p => (p.rows.length, p.definedFiles.length)) = some (2, 0) := by cbv
  have hfails : reportedLines.decode 28 = .error (.malformed .endOfInput) := by cbv
  have hnew : ¬ Sought (reportedRequests.take 3) 28 := by
    show ¬ Sought ([] ++ [.lookup 0] ++ [.decode 0] ++ [.lookup 0]) 28
    rw [sought_concat, sought_concat, sought_concat]
    simp [not_sought_nil]
  have hforgotten : ¬ Sought (reportedRequests.take 6) 0 := by
    show ¬ Sought (reportedRequests.take 5 ++ [.clear]) 0
    simp [sought_concat]
  obtain ⟨p, hdecode, hcounts⟩ := exists_ok_of_toOption hcounts
  obtain ⟨hrows, hfiles⟩ := Prod.mk.inj hcounts
  have hfirst := ((reported_once reportedLines [] (reportedRequests.drop 1) 0).2.2
    (by decide) (not_sought_nil 0)).1 p hdecode
  have hagain := (reported_once reportedLines (reportedRequests.take 2)
    (reportedRequests.drop 3) 0).2.1 (by decide) ⟨[], [.decode 0], rfl, by decide⟩
  have hbroken := ((reported_once reportedLines (reportedRequests.take 3)
    (reportedRequests.drop 4) 28).2.2 (by decide) hnew).2 _ hfails
  have houtside := (reported_once reportedLines (reportedRequests.take 4)
    (reportedRequests.drop 5) 29).1 (by decide)
  have hcleared := ((reported_once reportedLines (reportedRequests.take 6) [] 0).2.2
    (by decide) hforgotten).1 p hdecode
  rw [hrows, hfiles] at hfirst hcleared
  refine ⟨hfirst, hagain, hbroken, houtside, hcleared⟩

end ProgramStore
end LineTable
