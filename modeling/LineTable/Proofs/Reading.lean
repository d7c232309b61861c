/-
Bytes that a reader takes.

`r.Reads bytes value` says that `r` takes exactly `bytes` and gives `value`,
whatever follows them.  Each reader has one lemma of this form, and `Reads.bind`
puts them together along the `do` notation, so the layout of a record is read off
the order in which its fields are written.
-/
import LineTable.Program.Header
import LineTable.Proofs.ByteOrder

namespace LineTable
namespace Reader

variable {α β : Type}

/-- The reader takes exactly `bytes` and gives `value`, whatever follows. -/
def Reads (r : Reader α) (bytes : Bytes) (value : α) : Prop :=
  ∀ more, r.run (bytes ++ more) = .ok (value, more)

namespace Reads

theorem pure (value : α) : (Pure.pure value : Reader α).Reads [] value := fun _ => rfl

theorem bind {first : Reader α} {next : α → Reader β} {front back : Bytes} {a : α} {b : β}
    (hfirst : first.Reads front a) (hnext : (next a).Reads back b) :
    (first >>= next).Reads (front ++ back) b := by
  intro more
  rw [run_bind, List.append_assoc, hfirst]
  exact hnext more

/-- The second reader takes nothing. -/
theorem bind_nil {first : Reader α} {next : α → Reader β} {bytes : Bytes} {a : α} {b : β}
    (hfirst : first.Reads bytes a) (hnext : (next a).Reads [] b) :
    (first >>= next).Reads bytes b := by
  have h := hfirst.bind hnext
  rwa [List.append_nil] at h

theorem map {r : Reader α} {bytes : Bytes} {a : α} (f : α → β) (h : r.Reads bytes a) :
    (f <$> r).Reads bytes (f a) := by
  intro more
  show (r >>= fun a => Pure.pure (f a)).run (bytes ++ more) = _
  rw [run_bind, h more]
  rfl

/-- The last field of a record, after which nothing more is read. -/
theorem bind_pure {r : Reader α} {bytes : Bytes} {a : α} (f : α → β) (h : r.Reads bytes a) :
    (r >>= fun a => Pure.pure (f a)).Reads bytes (f a) := h.map f

/-- A reader fails on bytes that end before its own: what it took off the shorter string
it would take off the longer one too. -/
theorem cut {r : Reader α} {front back : Bytes} {value : α} (h : r.Reads (front ++ back) value)
    (hback : back ≠ []) : ∃ cause, r.run front = .error cause := by
  cases hrun : r.run front with
  | error cause => exact ⟨cause, rfl⟩
  | ok found =>
    obtain ⟨taken, rfl, hmore⟩ := r.run_append hrun
    have hwhole := h []
    rw [List.append_nil, List.append_assoc, hmore] at hwhole
    have hleft : found.2 ++ back = [] := congrArg Prod.snd (Except.ok.inj hwhole)
    exact absurd (List.append_eq_nil_iff.1 hleft).2 hback

theorem runLine {r : Reader α} {bytes : Bytes} {value : α} (h : r.Reads bytes value)
    (more : Bytes) : r.runLine (bytes ++ more) = .ok (value, more) := by
  rw [Reader.runLine, h more]
  rfl

end Reads

theorem reads_byte (b : UInt8) : byte.Reads [b] b := fun _ => rfl

theorem reads_take (bytes : Bytes) : (take bytes.length).Reads bytes bytes :=
  run_take_append bytes

theorem reads_number (e : Endian) {width n : Nat} (h : n < 256 ^ width) :
    (number e width).Reads (e.encode width n) n := by
  have htake := reads_take (e.encode width n)
  rw [Endian.encode_length] at htake
  have hread := htake.bind_pure e.decode
  rwa [Endian.decode_encode e h] at hread

theorem reads_u16 (e : Endian) (n : UInt16) : (u16 e).Reads (e.encode 2 n.toNat) n := by
  have hfits : n.toNat < 256 ^ 2 := n.toNat_lt
  have hread := (reads_number e hfits).bind_pure UInt16.ofNat
  rwa [UInt16.ofNat_toNat] at hread

theorem reads_address (e : Endian) {size : Nat} {a : UInt64}
    (hsize : size = 1 ∨ size = 2 ∨ size = 4 ∨ size = 8) (ha : a.toNat < 256 ^ size) :
    (address e size).Reads (e.encode size a.toNat) a := by
  have hread := (reads_number e ha).bind_pure UInt64.ofNat
  rw [UInt64.ofNat_toNat] at hread
  rwa [address, if_pos hsize]

theorem reads_zeroTerminated {text : Bytes} (h : 0 ∉ text) :
    zeroTerminated.Reads (text ++ [0]) text := by
  intro more
  rw [List.append_assoc]
  exact splitAtZero_append h more

theorem reads_times {item : Reader α} {write : α → Bytes} :
    ∀ values : List α, (∀ a ∈ values, item.Reads (write a) a) →
      (times item values.length).Reads (values.flatMap write) values
  | [], _ => Reads.pure []
  | a :: rest, h => by
    have hrest := reads_times rest fun b hb => h b (List.mem_cons_of_mem a hb)
    rw [List.flatMap_cons]
    exact (h a List.mem_cons_self).bind (hrest.bind_pure (a :: ·))

/-- What is left of a region is skipped. -/
theorem reads_within {r : Reader α} {region left : Bytes} {value : α}
    (h : r.run region = .ok (value, left)) : (within region r).Reads [] value := by
  intro more
  simp only [within, h, List.nil_append, run_pure]

/-! ### Tables

A table is read one entry at a time, the entries already read being kept in
reverse. -/

/-- Entry and name of a table: `write` puts a name in front of what `entry` reads. -/
def ReadsEntry (entry : Bytes → Reader α) (write : α → Bytes) (a : α) : Prop :=
  ∃ name body, write a = name ++ [0] ++ body ∧ name ≠ [] ∧ 0 ∉ name ∧ (entry name).Reads body a

theorem reads_tableStep {entry : Bytes → Reader α} {write : α → Bytes} {a : α}
    (h : ReadsEntry entry write a) (entries : List α) :
    (tableStep entry entries).Reads (write a) (.inl (a :: entries)) := by
  obtain ⟨name, body, hwrite, hname, hzero, hbody⟩ := h
  have hne : name.isEmpty = false := by simpa using hname
  rw [hwrite]
  refine (reads_zeroTerminated hzero).bind ?_
  simp only [hne, Bool.false_eq_true, if_false]
  exact hbody.bind_pure fun a => Sum.inl (a :: entries)

theorem reads_tableEnd (entry : Bytes → Reader α) (entries : List α) :
    (tableStep entry entries).Reads [0] (.inr entries.reverse) := by
  intro more
  rfl

theorem repeatFrom_tableStep {entry : Bytes → Reader α} {write : α → Bytes}
    (shrinks : ∀ entries, (tableStep entry entries).Shrinks) (values : List α)
    (h : ∀ a ∈ values, ReadsEntry entry write a) (entries : List α) (more : Bytes) :
    repeatFrom (tableStep entry) shrinks entries (values.flatMap write ++ [0] ++ more) =
      .ok (entries.reverse ++ values, more) := by
  induction values generalizing entries with
  | nil =>
    rw [repeatFrom_eq, List.flatMap_nil, List.nil_append, reads_tableEnd]
    simp
  | cons a rest ih =>
    rw [repeatFrom_eq, List.flatMap_cons, List.append_assoc, List.append_assoc,
      reads_tableStep (h a List.mem_cons_self), ← List.append_assoc]
    show repeatFrom _ _ (a :: entries) _ = _
    rw [ih (fun b hb => h b (List.mem_cons_of_mem a hb))]
    simp

/-- A table is read back if each of its entries is. -/
theorem reads_table {entry : Bytes → Reader α} {write : α → Bytes} (values : List α)
    (h : ∀ a ∈ values, ReadsEntry entry write a) :
    (table entry).Reads (values.flatMap write ++ [0]) values := by
  intro more
  exact repeatFrom_tableStep _ values h [] more

end Reader
end LineTable
