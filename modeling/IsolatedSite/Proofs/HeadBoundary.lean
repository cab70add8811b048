/-
# Where the head of a message ends

A reader that knows nothing of how a message was put together looks for the first two line ends in
a row, takes what stands before them for the head, and cuts the head into lines (`Response.read?`).
A carriage return in the head could end the head early, or a line; no line of a head holds one, so
both are found where they were put (`cutHead?_lines`, `linesOf_joined`), and the message is read as
what its lines say (`read?_lines`).
-/
import IsolatedSite.Http.Response

namespace IsolatedSite.Http

/-! ## 1. The end of the head -/

/-- What is found behind an octet that is no carriage return. -/
theorem cutHead?_cons {x : UInt8} (h : x ≠ Byte.cr) (rest : Bytes) :
    cutHead? (x :: rest) = (cutHead? rest).map fun p => (x :: p.1, p.2) :=
  cutHead?.eq_3 x rest fun _ hcr _ => h hcr

theorem cutHead?_append {line : Bytes} (h : Byte.cr ∉ line) (rest : Bytes) :
    cutHead? (line ++ rest) = (cutHead? rest).map fun p => (line ++ p.1, p.2) := by
  induction line with
  | nil => simp
  | cons x line ih =>
    have hx : x ≠ Byte.cr := fun e => h (e ▸ List.mem_cons_self)
    have hline : Byte.cr ∉ line := fun hm => h (List.mem_cons_of_mem _ hm)
    rw [List.cons_append, cutHead?_cons hx, ih hline]
    cases cutHead? rest <;> rfl

/-- A single line end does not end the head. -/
theorem cutHead?_lineEnd {x : UInt8} (h : x ≠ Byte.cr) (rest : Bytes) :
    cutHead? (lineEnd ++ x :: rest) =
      (cutHead? (x :: rest)).map fun p => (lineEnd ++ p.1, p.2) := by
  have hcr : cutHead? (Byte.cr :: Byte.lf :: x :: rest) =
      (cutHead? (Byte.lf :: x :: rest)).map fun p => (Byte.cr :: p.1, p.2) := by
    refine cutHead?.eq_3 _ _ fun body _ heq => ?_
    exact h (List.head_eq_of_cons_eq (List.tail_eq_of_cons_eq heq))
  rw [lineEnd, List.cons_append, List.cons_append, List.nil_append, hcr,
    cutHead?_cons (by decide)]
  cases cutHead? (x :: rest) <;> rfl

/-- **The head ends behind its last line**, whatever follows.  The induction is on the further
lines; each begins with an octet that is no carriage return, so the line end before it stands
alone. -/
theorem cutHead?_lines {first : Bytes} {lines : List Bytes} (hfirst : Byte.cr ∉ first)
    (hlines : ∀ l ∈ lines, l ≠ [] ∧ Byte.cr ∉ l) (body : Bytes) :
    cutHead? (first ++ lines.flatMap (fun l => lineEnd ++ l) ++ (lineEnd ++ lineEnd ++ body)) =
      some (first ++ lines.flatMap (fun l => lineEnd ++ l), body) := by
  induction lines generalizing first with
  | nil =>
    have hend : cutHead? (lineEnd ++ lineEnd ++ body) = some ([], body) := rfl
    rw [List.flatMap_nil, List.append_nil, cutHead?_append hfirst, hend]
    simp
  | cons l lines ih =>
    obtain ⟨hne, hcr⟩ := hlines l List.mem_cons_self
    have hrest := ih hcr fun m hm => hlines m (List.mem_cons_of_mem _ hm)
    cases l with
    | nil => exact absurd rfl hne
    | cons x l =>
      have hx : x ≠ Byte.cr := fun e => hcr (e ▸ List.mem_cons_self)
      rw [List.flatMap_cons, List.append_assoc, List.append_assoc, List.append_assoc,
        cutHead?_append hfirst, List.cons_append, cutHead?_lineEnd hx]
      simp only [List.append_assoc, List.cons_append] at hrest ⊢
      rw [hrest]
      simp

/-! ## 2. The lines of the head -/

theorem linesOf_of_not_mem {line : Bytes} (h : Byte.cr ∉ line) : linesOf line = [line] := by
  induction line with
  | nil => rfl
  | cons x line ih =>
    have hx : x ≠ Byte.cr := fun e => h (e ▸ List.mem_cons_self)
    have hline : Byte.cr ∉ line := fun hm => h (List.mem_cons_of_mem _ hm)
    rw [linesOf.eq_3 x line fun _ hcr _ => hx hcr, ih hline]

theorem linesOf_append {line : Bytes} (h : Byte.cr ∉ line) (rest : Bytes) :
    linesOf (line ++ (lineEnd ++ rest)) = line :: linesOf rest := by
  induction line with
  | nil => rfl
  | cons x line ih =>
    have hx : x ≠ Byte.cr := fun e => h (e ▸ List.mem_cons_self)
    have hline : Byte.cr ∉ line := fun hm => h (List.mem_cons_of_mem _ hm)
    rw [List.cons_append, linesOf.eq_3 x _ fun _ hcr _ => hx hcr, ih hline]

/-- **The head is cut into its lines** again. -/
theorem linesOf_joined {first : Bytes} {lines : List Bytes} (hfirst : Byte.cr ∉ first)
    (hlines : ∀ l ∈ lines, Byte.cr ∉ l) :
    linesOf (first ++ lines.flatMap fun l => lineEnd ++ l) = first :: lines := by
  induction lines generalizing first with
  | nil => rw [List.flatMap_nil, List.append_nil, linesOf_of_not_mem hfirst]
  | cons l lines ih =>
    have hrest := ih (hlines l List.mem_cons_self) fun m hm => hlines m (List.mem_cons_of_mem _ hm)
    rw [List.flatMap_cons, List.append_assoc, linesOf_append hfirst, hrest]

/-! ## 3. Messages of lines -/

/-- Line ends behind lines are line ends before lines, moved by one. -/
theorem lineEnd_append_flatMap (lines : List Bytes) :
    lineEnd ++ lines.flatMap (fun l => l ++ lineEnd) =
      lines.flatMap (fun l => lineEnd ++ l) ++ lineEnd := by
  induction lines with
  | nil => simp
  | cons l lines ih =>
    rw [List.flatMap_cons, List.flatMap_cons, List.append_assoc, ih]
    simp only [List.append_assoc]

/-- What is read of lines with line ends between them, an empty line and a body. -/
theorem read?_lines {first : Bytes} {lines : List Bytes} {status : Status} {fields : Fields}
    (hfirst : Byte.cr ∉ first) (hlines : ∀ l ∈ lines, l ≠ [] ∧ Byte.cr ∉ l)
    (hstatus : statusOfLine? first = some status) (hfields : lines.mapM fieldOfLine? = some fields)
    (body : Bytes) :
    Response.read? (first ++ lines.flatMap (fun l => lineEnd ++ l) ++
      (lineEnd ++ lineEnd ++ body)) = some ⟨status, fields, body⟩ := by
  have hcut := cutHead?_lines hfirst hlines body
  have hjoined := linesOf_joined hfirst fun l hl => (hlines l hl).2
  rw [Response.read?, hcut]
  simp [hjoined, hstatus, hfields]

end IsolatedSite.Http
