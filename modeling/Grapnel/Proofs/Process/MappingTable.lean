import Mathlib
import Grapnel.Process.Maps
import Grapnel.Proofs.Number.Reading
import Grapnel.Proofs.Text.Encoding
import Grapnel.Proofs.Text.Lines

namespace Grapnel

namespace Access

/-- Whether an access consists of the rights that letters show. -/
def IsShown (a : Access) : Prop := all.contains a = true

instance (a : Access) : Decidable a.IsShown := inferInstanceAs (Decidable (_ = true))

theorem IsShown.eq_union {a : Access} (h : a.IsShown) :
    ((if a.contains read then read else none).union
      (if a.contains write then write else none)).union
      (if a.contains execute then execute else none) = a := by
  have hbits : 7 &&& a.bits = a.bits := beq_iff_eq.1 h
  have hle : a.bits.toNat ≤ 7 := by
    rw [← hbits, UInt8.toNat_and]
    exact Nat.and_le_left
  obtain ⟨n, hn, rfl⟩ : ∃ n ≤ 7, a = ⟨.ofNat n⟩ := ⟨_, hle, by rw [UInt8.ofNat_toNat]⟩
  interval_cases n <;> rfl

end Access

namespace Maps

open Text Hexadecimal

variable {r : Region} {w s rest : List Char} {reason : String}

/-- The end of a line, or a space. -/
def Open (s : List Char) : Prop := s = [] ∨ ∃ t, s = ' ' :: t

/-- Spaces between two fields; there is one space more than the number says. -/
def gap (n : Nat) : List Char := List.replicate (n + 1) ' '

theorem open_gap (n : Nat) : Open (gap n ++ s) := .inr ⟨_, rfl⟩

theorem Open.takeWhile (h : Open s) : s.takeWhile (· ≠ ' ') = [] := by
  rcases h with rfl | ⟨t, rfl⟩
  · rfl
  · rfl

theorem Open.dropWhile (h : Open s) : s.dropWhile (· ≠ ' ') = s := by
  rcases h with rfl | ⟨t, rfl⟩
  · rfl
  · rfl

theorem Open.strip (h : Open s) : Open (stripReturn s) := by
  rcases h with rfl | ⟨t, rfl⟩
  · exact .inl rfl
  · rw [stripReturn]
    split
    · next hlast =>
      cases t with
      | nil => cases hlast
      | cons c t => exact .inr ⟨_, List.dropLast_cons_of_ne_nil (List.cons_ne_nil c t)⟩
    · exact .inr ⟨t, rfl⟩

theorem nextField?_of_trimStart (h : trimStart s = w ++ rest) (hw : IsWord w) (hrest : Open rest) :
    nextField? s = some (w, rest) := by
  obtain ⟨c, cs, hc⟩ := List.exists_cons_of_ne_nil hw.nonempty
  have hsolid : ∀ c ∈ w, decide (c ≠ ' ') = true := by
    intro c hmem
    rw [decide_eq_true_eq]
    rintro rfl
    exact hw.not_mem rfl hmem
  have htake : (w ++ rest).takeWhile (· ≠ ' ') = w := by
    rw [List.takeWhile_append_of_pos hsolid, hrest.takeWhile, List.append_nil]
  have hdrop : (w ++ rest).dropWhile (· ≠ ' ') = rest := by
    rw [List.dropWhile_append_of_pos hsolid, hrest.dropWhile]
  rw [nextField?, h]
  rw [hc] at htake hdrop ⊢
  exact congrArg some (Prod.ext htake hdrop)

theorem field_first (hw : IsWord w) (hrest : Open rest) :
    field reason (w ++ rest) = .ok (w, rest) := by
  rw [field, nextField?_of_trimStart hw.trimStart hw hrest]

theorem field_next (n : Nat) (hw : IsWord w) (hrest : Open rest) :
    field reason (gap n ++ (w ++ rest)) = .ok (w, rest) := by
  have htrim : trimStart (gap n ++ (w ++ rest)) = w ++ rest :=
    (trimStart_spaces _).trans hw.trimStart
  rw [field, nextField?_of_trimStart htrim hw hrest]

/-- What the kernel's form of a line leaves open: up to which width numbers are padded with zeros,
how many more spaces than one stand between fields, and what device and inode are. -/
structure Layout where
  startWidth : Nat
  stopWidth : Nat
  offsetWidth : Nat
  permissionsGap : Nat
  offsetGap : Nat
  deviceGap : Nat
  inodeGap : Nat
  pathGap : Nat
  device : List Char
  inode : List Char
  device_isWord : IsWord device
  inode_isWord : IsWord inode

namespace Layout

variable (l : Layout) (r : Region)

def range : List Char :=
  padded l.startWidth r.start.toNat ++ '-' :: padded l.stopWidth r.stop.toNat

def permissions : List Char := r.access.text.toList ++ [if r.shared then 's' else 'p']

def offset : List Char := padded l.offsetWidth r.offset.toNat

/-- A line up to the inode. -/
def head : List Char :=
  l.range r ++ (gap l.permissionsGap ++ (permissions r ++ (gap l.offsetGap ++ (l.offset r ++
    (gap l.deviceGap ++ (l.device ++ (gap l.inodeGap ++ l.inode)))))))

/-- What follows the inode; spaces may stand there though there is no path. -/
def tail : List Char :=
  match r.path with
  | none => List.replicate l.pathGap ' '
  | some path => gap l.pathGap ++ path.toList

def line : List Char := l.head r ++ l.tail r

end Layout

/-- The letters of four rights; a right that is not there is a dash, or `p` for the last one. -/
def letters (read write execute shared : Bool) : List Char :=
  [if read then 'r' else '-', if write then 'w' else '-', if execute then 'x' else '-',
    if shared then 's' else 'p']

theorem permissions_eq (r : Region) : Layout.permissions r =
    letters (r.access.contains .read) (r.access.contains .write) (r.access.contains .execute)
      r.shared := by
  rw [Layout.permissions, Access.text, String.toList_ofList]
  rfl

theorem isWord_letters (read write execute shared : Bool) :
    IsWord (letters read write execute shared) where
  nonempty := List.cons_ne_nil _ _
  solid c hc := by
    have hcases : c = 'r' ∨ c = 'w' ∨ c = 'x' ∨ c = '-' ∨ c = 's' ∨ c = 'p' := by
      simp only [letters, List.mem_cons, List.not_mem_nil, or_false] at hc
      grind
    rcases hcases with rfl | rfl | rfl | rfl | rfl | rfl <;> rfl

theorem read_letters (read write execute shared : Bool) :
    Maps.permissions (letters read write execute shared) =
      .ok (((if read then Access.read else .none).union
        (if write then .write else .none)).union (if execute then .execute else .none), shared) := by
  rw [Maps.permissions, Access.ofText?]
  simp only [Utf8.toList_toUTF8, String.toList_ofList]
  cases read <;> cases write <;> cases execute <;> cases shared <;> rfl

theorem word_padded (width : Nat) (n : UInt64) : word reason (padded width n.toNat) = .ok n := by
  have hread : read? wordLimit (padded width n.toNat) = some n.toNat := read?_padded width n.toNat_lt
  rw [word, hread]
  exact congrArg Except.ok UInt64.ofNat_toNat

theorem isWord_padded (width n : Nat) : IsWord (padded width n) where
  nonempty := padded_ne_nil
  solid c hc := by
    obtain ⟨d, hd⟩ := isDigit_of_mem_padded hc
    exact hd.not_blank

theorem ne_dash_of_mem_padded {c : Char} {width n : Nat} (h : c ∈ padded width n) :
    decide (c ≠ '-') = true := by
  obtain ⟨d, hd⟩ := isDigit_of_mem_padded h
  exact decide_eq_true hd.ne_dash

namespace Layout

variable (l : Layout)

theorem isWord_range : IsWord (l.range r) where
  nonempty h := padded_ne_nil (List.append_eq_nil_iff.1 h).1
  solid c hc := by
    rcases List.mem_append.1 hc with hc | hc
    · exact (isWord_padded _ _).solid c hc
    · rcases List.mem_cons.1 hc with rfl | hc
      · rfl
      · exact (isWord_padded _ _).solid c hc

theorem read_range (h : r.start < r.stop) : Maps.range (l.range r) = .ok (r.start, r.stop) := by
  have htake : (l.range r).takeWhile (· ≠ '-') = padded l.startWidth r.start.toNat := by
    rw [range, List.takeWhile_append_of_pos fun c hc => ne_dash_of_mem_padded hc]
    exact List.append_nil _
  have hdrop : (l.range r).dropWhile (· ≠ '-') = '-' :: padded l.stopWidth r.stop.toNat := by
    rw [range, List.dropWhile_append_of_pos fun c hc => ne_dash_of_mem_padded hc]
    rfl
  have hstart : word "invalid start address" (padded l.startWidth r.start.toNat) =
      .ok r.start.word := word_padded ..
  have hstop : word "invalid end address" (padded l.stopWidth r.stop.toNat) = .ok r.stop.word :=
    word_padded ..
  have hlt : ¬ r.stop.word ≤ r.start.word := UInt64.not_le.2 h
  rw [Maps.range, hdrop, htake]
  dsimp only
  rw [hstart, hstop]
  exact if_neg hlt

theorem isWord_permissions : IsWord (permissions r) :=
  permissions_eq r ▸ isWord_letters ..

theorem read_permissions (h : r.access.IsShown) :
    Maps.permissions (permissions r) = .ok (r.access, r.shared) := by
  rw [permissions_eq, read_letters, h.eq_union]

theorem isWord_offset : IsWord (l.offset r) := isWord_padded ..

theorem read_offset : word reason (l.offset r) = .ok r.offset := word_padded ..

theorem fields_head (hrest : Open rest) :
    fields (l.head r ++ rest) = .ok ⟨l.range r, permissions r, l.offset r, rest⟩ := by
  have hfirst {reason s} (hs : Open s) : field reason (l.range r ++ s) = .ok (l.range r, s) :=
    field_first l.isWord_range hs
  rw [fields, head]
  simp only [List.append_assoc, bind, Except.bind, hfirst (open_gap _),
    field_next _ isWord_permissions (open_gap _), field_next _ l.isWord_offset (open_gap _),
    field_next _ l.device_isWord (open_gap _), field_next _ l.inode_isWord hrest]
  rfl

theorem region_head (horder : r.start < r.stop) (haccess : r.access.IsShown) (hrest : Open rest) :
    region (l.head r ++ rest) = .ok { r with
      path := if trimStart rest = [] then none else some (.ofList (trimStart rest)) } := by
  rw [region, l.fields_head hrest]
  dsimp only [bind, Except.bind]
  rw [l.read_range horder]
  dsimp only
  rw [read_permissions haccess]
  dsimp only
  rw [l.read_offset]
  dsimp only
  cases trimStart rest with
  | nil => rfl
  | cons c cs => rfl

theorem tail_open (r : Region) : Open (l.tail r) := by
  rw [tail]
  cases r.path with
  | none =>
    cases l.pathGap with
    | zero => exact .inl rfl
    | succ n => exact .inr ⟨_, rfl⟩
  | some path => exact open_gap _

theorem solid_head (r : Region) (rest : List Char) : (l.head r ++ rest).all isBlank = false := by
  obtain ⟨c, cs, hc⟩ := List.exists_cons_of_ne_nil (l.isWord_range (r := r)).nonempty
  have hsolid : isBlank c = false := l.isWord_range.solid c (hc ▸ List.mem_cons_self)
  rw [head, hc]
  simp [hsolid]

end Layout

/-- A path that a line can show to its end. -/
structure IsPath (path : String) : Prop where
  start : ∃ c cs, path.toList = c :: cs ∧ isBlank c = false
  one_line : '\n' ∉ path.toList
  last : path.toList.getLast? ≠ some '\r'

/-- A region that a line can show. -/
structure IsListed (r : Region) : Prop where
  order : r.start < r.stop
  access : r.access.IsShown
  path : ∀ path, r.path = some path → IsPath path

/-- A line of a table: a blank one, or one that shows a region in the kernel's form. -/
inductive Shows : List Char → Option Region → Prop
  | blank {line : List Char} : line.all isBlank = true → '\n' ∉ line → Shows line none
  | row {r : Region} (l : Layout) : IsListed r → Shows (l.line r) (some r)

namespace Layout

variable (l : Layout)

theorem region_line (h : IsListed r) : region (l.line r) = .ok r := by
  rw [line, l.region_head h.order h.access (l.tail_open r)]
  have hpath : (if trimStart (l.tail r) = [] then none else
      some (String.ofList (trimStart (l.tail r)))) = r.path := by
    rw [tail]
    cases hr : r.path with
    | none =>
      have htrim : trimStart (List.replicate l.pathGap ' ') = [] := by
        have := trimStart_spaces (s := []) l.pathGap
        rwa [List.append_nil] at this
      exact if_pos htrim
    | some path =>
      obtain ⟨c, cs, hc, hsolid⟩ := (h.path path hr).start
      have htrim : trimStart (gap l.pathGap ++ path.toList) = path.toList := by
        rw [gap, trimStart_spaces, hc, trimStart_solid hsolid]
      dsimp only
      rw [htrim, if_neg (by simp [hc]), String.ofList_toList]
  rw [hpath]

theorem not_mem_head {c : Char} (r : Region) (hc : isBlank c = true) (hne : c ≠ ' ') :
    c ∉ l.head r := by
  have hrange := l.isWord_range (r := r)
  have hpermissions := isWord_permissions (r := r)
  have hoffset := l.isWord_offset (r := r)
  simp [head, gap, hne, hrange.not_mem hc, hpermissions.not_mem hc, hoffset.not_mem hc,
    l.device_isWord.not_mem hc, l.inode_isWord.not_mem hc]

theorem newline_not_mem (h : IsListed r) : '\n' ∉ l.line r := by
  rw [line, List.mem_append, not_or]
  refine ⟨l.not_mem_head r rfl (by decide), ?_⟩
  rw [tail]
  cases hr : r.path with
  | none => simp
  | some path => simp [gap, (h.path path hr).one_line]

theorem stripReturn_head (r : Region) :
    stripReturn (l.head r ++ s) = l.head r ++ stripReturn s := by
  rw [stripReturn, stripReturn, List.getLast?_append]
  cases hs : s.getLast? with
  | none =>
    rw [List.getLast?_eq_none_iff.1 hs, List.append_nil, if_neg]
    · simp
    · intro hlast
      exact l.not_mem_head r rfl (by decide) (List.mem_of_getLast? hlast)
  | some c =>
    have hne : s ≠ [] := by
      rintro rfl
      cases hs
    rw [List.dropLast_append_of_ne_nil hne, Option.some_or]
    split <;> rfl

theorem stripReturn_line (h : IsListed r) : stripReturn (l.line r) = l.line r := by
  have htail : (l.tail r).getLast? ≠ some '\r' := by
    rw [tail]
    cases hr : r.path with
    | none =>
      intro hlast
      cases List.eq_of_mem_replicate (List.mem_of_getLast? hlast)
    | some path =>
      obtain ⟨c, cs, hc, _⟩ := (h.path path hr).start
      have hlast := (h.path path hr).last
      rw [hc] at hlast
      dsimp only
      rw [hc, List.getLast?_append_of_ne_nil _ (List.cons_ne_nil c cs)]
      exact hlast
  rw [line, stripReturn_head, stripReturn, if_neg htail]

end Layout

theorem Shows.strip {line : List Char} {entry : Option Region} (h : Shows line entry) :
    Shows (stripReturn line) entry := by
  cases h with
  | blank hblank hline =>
    rw [stripReturn]
    split
    · refine .blank ?_ fun hmem => hline (List.mem_of_mem_dropLast hmem)
      rw [List.all_eq_true] at hblank ⊢
      intro c hc
      exact hblank c (List.mem_of_mem_dropLast hc)
    · exact .blank hblank hline
  | row l hr =>
    rw [l.stripReturn_line hr]
    exact .row l hr

theorem Shows.one_line {line : List Char} {entry : Option Region} (h : Shows line entry) :
    '\n' ∉ line := by
  cases h with
  | blank _ hline => exact hline
  | row l hr => exact l.newline_not_mem hr

/-- What is made of a line: nothing of a blank one, and else the region that is read from it. -/
inductive Reads : List Char → Option Region → Prop
  | blank {line : List Char} : line.all isBlank = true → Reads line none
  | row {line : List Char} {r : Region} : line.all isBlank = false → region line = .ok r →
      Reads line (some r)

theorem Shows.reads {line : List Char} {entry : Option Region} (h : Shows line entry) :
    Reads line entry := by
  cases h with
  | blank hblank _ => exact .blank hblank
  | @row r l hr => exact .row (l.solid_head r _) (l.region_line hr)

theorem regionsFrom_reads {ls : List (List Char)} {entries : List (Option Region)}
    (h : List.Forall₂ Reads ls entries) (n : Nat) : regionsFrom n ls = .ok entries.reduceOption := by
  induction h generalizing n with
  | nil => rfl
  | cons hline hlines ih =>
    rw [regionsFrom, trim_isEmpty]
    cases hline with
    | blank hblank =>
      rw [if_pos hblank, ih]
      rfl
    | row hsolid hread =>
      rw [if_neg (by rw [hsolid]; decide), regionOfLine, hread, ih]
      rfl

theorem Shows.of_nil {entry : Option Region} (h : Shows [] entry) : entry = none := by
  generalize hline : [] = line at h
  cases h with
  | blank => rfl
  | @row r l hr =>
    have hsolid := l.solid_head r (l.tail r)
    rw [← Layout.line, ← hline] at hsolid
    cases hsolid

theorem regions_shows {ls : List (List Char)} {last : List Char} {entries : List (Option Region)}
    {entry : Option Region} (h : List.Forall₂ Shows ls entries) (hlast : Shows last entry) :
    regions (.ofList (ended ls ++ last)) = .ok (entries ++ [entry]).reduceOption := by
  have hlines : ∀ line ∈ ls, '\n' ∉ line := by
    intro line hmem
    obtain ⟨entry, hentry⟩ := exists_forall₂_iff.1 ⟨_, h⟩ line hmem
    exact hentry.one_line
  have hstrip : List.Forall₂ Reads (ls.map stripReturn) entries := by
    rw [List.forall₂_map_left_iff]
    exact h.imp fun _ _ hline => hline.strip.reads
  rw [regions, String.toList_ofList, lines_ended hlines hlast.one_line]
  cases last with
  | nil =>
    rw [hlast.of_nil, List.reduceOption_append]
    simpa using regionsFrom_reads hstrip 1
  | cons c cs => exact regionsFrom_reads (List.rel_append hstrip (.cons hlast.reads .nil)) 1

theorem bind_eq_ok_iff {ε α β : Type} {x : Except ε α} {f : α → Except ε β} {b : β} :
    x >>= f = .ok b ↔ ∃ a, x = .ok a ∧ f a = .ok b := by
  cases x with
  | error e =>
    constructor
    · intro h
      cases h
    · rintro ⟨_, h, _⟩
      cases h
  | ok a =>
    constructor
    · exact fun h => ⟨a, rfl, h⟩
    · rintro ⟨_, ha, h⟩
      cases ha
      exact h

theorem range_lt {a b : Address} (h : range s = .ok (a, b)) : a < b := by
  rw [range] at h
  cases hdash : s.dropWhile (· ≠ '-') with
  | nil =>
    rw [hdash] at h
    cases h
  | cons dash stop =>
    rw [hdash] at h
    obtain ⟨start, -, h⟩ := bind_eq_ok_iff.1 h
    obtain ⟨stop, -, h⟩ := bind_eq_ok_iff.1 h
    by_cases hle : stop ≤ start
    · rw [if_pos hle] at h
      cases h
    · rw [if_neg hle] at h
      cases h
      exact UInt64.not_le.1 hle

theorem region_lt {line : List Char} (h : region line = .ok r) : r.start < r.stop := by
  rw [region] at h
  obtain ⟨f, -, h⟩ := bind_eq_ok_iff.1 h
  obtain ⟨⟨start, stop⟩, hrange, h⟩ := bind_eq_ok_iff.1 h
  obtain ⟨⟨access, shared⟩, -, h⟩ := bind_eq_ok_iff.1 h
  obtain ⟨offset, -, h⟩ := bind_eq_ok_iff.1 h
  cases h
  exact range_lt hrange

/-- The lines of a text that are not blank. -/
def solidLines (s : String) : List (List Char) :=
  (lines s.toList).filter fun line => !line.all isBlank

theorem regionsFrom_ok {ls : List (List Char)} {n : Nat} {rs : List Region}
    (h : regionsFrom n ls = .ok rs) :
    List.Forall₂ (fun line r => region line = .ok r)
      (ls.filter fun line => !line.all isBlank) rs := by
  induction ls generalizing n rs with
  | nil =>
    cases h
    exact .nil
  | cons line ls ih =>
    rw [regionsFrom, trim_isEmpty] at h
    rw [List.filter_cons]
    cases hblank : line.all isBlank with
    | true =>
      rw [hblank, if_pos rfl] at h
      exact ih h
    | false =>
      rw [hblank, if_neg Bool.false_ne_true, regionOfLine] at h
      cases hline : region line with
      | error reason => rw [hline] at h; cases h
      | ok r =>
        cases hrest : regionsFrom (n + 1) ls with
        | error fault => rw [hline, hrest] at h; cases h
        | ok rs =>
          rw [hline, hrest] at h
          cases h
          exact .cons hline (ih hrest)

/-- A line that is not read at all, or read without a fault. -/
def Passes (line : List Char) : Prop := line.all isBlank = true ∨ ∃ r, region line = .ok r

theorem regionsFrom_error {ls : List (List Char)} {n : Nat} {fault : SourceFault}
    (h : regionsFrom n ls = .error fault) :
    ∃ before line after reason, ls = before ++ line :: after ∧
      fault = .malformedMaps (n + before.length) reason ∧ (∀ l ∈ before, Passes l) ∧
      line.all isBlank = false ∧ region line = .error reason := by
  induction ls generalizing n with
  | nil => cases h
  | cons line ls ih =>
    -- A line that passes leaves the fault to the lines behind it, one number further.
    have hlater (hline : Passes line) (h : regionsFrom (n + 1) ls = .error fault) :
        ∃ before line' after reason, line :: ls = before ++ line' :: after ∧
          fault = .malformedMaps (n + before.length) reason ∧ (∀ l ∈ before, Passes l) ∧
          line'.all isBlank = false ∧ region line' = .error reason := by
      obtain ⟨before, line', after, reason, rfl, rfl, hbefore, hrest⟩ := ih h
      refine ⟨line :: before, line', after, reason, rfl, ?_, ?_, hrest⟩
      · rw [List.length_cons, Nat.add_right_comm, Nat.add_assoc]
      · exact List.forall_mem_cons.2 ⟨hline, hbefore⟩
    rw [regionsFrom, trim_isEmpty] at h
    cases hblank : line.all isBlank with
    | true =>
      rw [hblank, if_pos rfl] at h
      exact hlater (.inl hblank) h
    | false =>
      rw [hblank, if_neg Bool.false_ne_true, regionOfLine] at h
      cases hline : region line with
      | error reason =>
        rw [hline] at h
        cases h
        exact ⟨[], line, ls, reason, rfl, rfl, by simp, hblank, hline⟩
      | ok r =>
        cases hrest : regionsFrom (n + 1) ls with
        | error later =>
          rw [hline, hrest] at h
          cases h
          exact hlater (.inr ⟨r, hline⟩) hrest
        | ok rs =>
          rw [hline, hrest] at h
          cases h

/-- A table in the kernel's form is read as what its lines show, whether or not the last line is
ended. What is read of any text has one region, which is not empty, for each line that is not blank;
and a text that is refused is refused for the first line that cannot be read, by its number. -/
theorem regions_exact :
    (∀ ls last entries entry, List.Forall₂ Shows ls entries → Shows last entry →
      regions (.ofList (ended ls ++ last)) = .ok (entries ++ [entry]).reduceOption) ∧
    (∀ s rs, regions s = .ok rs →
      List.Forall₂ (fun line r => region line = .ok r) (solidLines s) rs ∧
      ∀ r ∈ rs, r.start < r.stop) ∧
    (∀ s fault, regions s = .error fault →
      ∃ before line after reason, lines s.toList = before ++ line :: after ∧
        fault = .malformedMaps (1 + before.length) reason ∧ (∀ l ∈ before, Passes l) ∧
        line.all isBlank = false ∧ region line = .error reason) := by
  refine ⟨fun _ _ _ _ => regions_shows, fun s rs h => ?_, fun _ _ => regionsFrom_error⟩
  have hread := regionsFrom_ok h
  refine ⟨hread, fun r hr => ?_⟩
  obtain ⟨line, hline⟩ := exists_forall₂_iff.1 ⟨_, hread.flip⟩ r hr
  exact region_lt hline

/-- The layout without padding, of a mapping of no file. -/
def Layout.bare : Layout :=
  ⟨0, 0, 0, 0, 0, 0, 0, 0, "0:0".toList, "0".toList, ⟨by decide, by simp [isBlank]⟩,
    ⟨by decide, by simp [isBlank]⟩⟩

theorem regions_exact_spaced :
    regions ("00400000-7fffffffffff rwxs 0010 fd:00  12   /a (b)  c \n \t\n" ++
        "0-ffffffffffffffff ---p 0 0:0 0\n") =
      .ok [⟨⟨0x400000⟩, ⟨0x7fffffffffff⟩, .all, true, 0x10, some "/a (b)  c "⟩,
        ⟨⟨0⟩, ⟨0xffffffffffffffff⟩, .none, false, 0, none⟩] ∧
    (solidLines " \n1-2 r-xp 0 0:0 0").length = 1 ∧
    ∃ before line after reason, lines "\n1-2 r-xp 0 0:0 0\n2-1 r-xp 0 0:0 0\n".toList =
        before ++ line :: after ∧
      SourceFault.malformedMaps 3 "empty address range" =
        .malformedMaps (1 + before.length) reason ∧ (∀ l ∈ before, Passes l) ∧
      line.all isBlank = false ∧ region line = .error reason := by
  obtain ⟨hshown, hread, hrefused⟩ := regions_exact
  have hfirst : Shows "00400000-7fffffffffff rwxs 0010 fd:00  12   /a (b)  c ".toList
      (some ⟨⟨0x400000⟩, ⟨0x7fffffffffff⟩, .all, true, 0x10, some "/a (b)  c "⟩) := by
    obtain ⟨l, hl⟩ : ∃ l : Layout,
        l.line ⟨⟨0x400000⟩, ⟨0x7fffffffffff⟩, .all, true, 0x10, some "/a (b)  c "⟩ =
          "00400000-7fffffffffff rwxs 0010 fd:00  12   /a (b)  c ".toList :=
      ⟨⟨8, 0, 4, 0, 0, 0, 1, 2, "fd:00".toList, "12".toList, ⟨by decide, by simp [isBlank]⟩,
        ⟨by decide, by simp [isBlank]⟩⟩, by cbv⟩
    rw [← hl]
    refine .row l ⟨by decide, by decide, fun path hpath => ?_⟩
    cases hpath
    exact ⟨⟨_, _, rfl, by decide⟩, by decide, by decide⟩
  have hthird : Shows "0-ffffffffffffffff ---p 0 0:0 0".toList
      (some ⟨⟨0⟩, ⟨0xffffffffffffffff⟩, .none, false, 0, none⟩) := by
    have hline : Layout.bare.line ⟨⟨0⟩, ⟨0xffffffffffffffff⟩, .none, false, 0, none⟩ =
        "0-ffffffffffffffff ---p 0 0:0 0".toList := by cbv
    rw [← hline]
    refine .row .bare ⟨by decide, by decide, fun path hpath => ?_⟩
    cases hpath
  have hone : regions " \n1-2 r-xp 0 0:0 0" = .ok [⟨⟨1⟩, ⟨2⟩, .readExecute, false, 0, none⟩] := by
    cbv
  have hthree : regions "\n1-2 r-xp 0 0:0 0\n2-1 r-xp 0 0:0 0\n" =
      .error (.malformedMaps 3 "empty address range") := by cbv
  refine ⟨?_, (hread _ _ hone).1.length_eq, hrefused _ _ hthree⟩
  have hblank : Shows " \t".toList none := .blank (by decide) (by decide)
  have htable := hshown [_, _, _] [] [_, _, _] none
    (.cons hfirst (.cons hblank (.cons hthird .nil))) (.blank (by decide) (by decide))
  refine Eq.trans (congrArg regions ?_) htable
  cbv

end Maps

end Grapnel
