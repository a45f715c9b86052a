import OxmlMcp.Tools.Document
import Mathlib.Algebra.BigOperators.Group.List.Basic
import Mathlib.Algebra.GroupWithZero.Nat

/-!
# The text of a node

The functions of `src/output.rs`. They collect the text of a node piece by piece, and charge each
piece to a budget of bytes before it is appended.

* `text_eq`: a node is reported by the pieces of its text, if the budget has room for all of them.
* `texts_eq`: so are the nodes of a node-set, from one budget.
-/

namespace OxmlMcp.Tools

/-- `usize::checked_sub`. -/
def checkedSub (a b : Nat) : Option Nat :=
  if b ≤ a then some (a - b) else none

/-- `append`: the text with a piece appended, and what remains of the budget. -/
def append (out text : String) (remaining : Nat) : Except String (String × Nat) :=
  match checkedSub remaining text.utf8ByteSize with
  | some remaining => .ok (out ++ text, remaining)
  | none => .error "query output exceeds the string byte limit"

/-- `direct_text`. -/
def directText (doc : Document) (id : NodeId) : Option String :=
  match doc.kind id with
  | some (.text text) => some text
  | some (.attr value) => some value
  | some (.namespaceNode uri) => some uri
  | _ => none

/-- The body of the loop over the descendants in `text`. -/
def appendChild (doc : Document) (state : String × Nat) (child : NodeId) :
    Except String (String × Nat) :=
  match doc.kind child with
  | some (.text text) => append state.1 text state.2
  | _ => .ok state

/-- `text`: the text of a node, and what remains of the budget. -/
def text (doc : Document) (id : NodeId) (remaining : Nat) : Except String (String × Nat) :=
  match directText doc id with
  | some text => append "" text remaining
  | none =>
    match doc.kind id with
    | some .root | some (.element _) =>
      (doc.descendantsOf id).foldlM (appendChild doc) ("", remaining)
    | _ => .ok ("", remaining)

/-- The texts of the nodes of a node-set, from one budget: the loop
`nodes.iter().map(..).collect::<Result<Vec<_>, _>>()` of `query`. -/
def texts (doc : Document) : List NodeId → Nat → Except String (List String × Nat)
  | [], remaining => .ok ([], remaining)
  | id :: ids, remaining => do
    let (t, remaining) ← text doc id remaining
    let (ts, remaining) ← texts doc ids remaining
    .ok (t :: ts, remaining)

/-- The text that a node holds as a text node. -/
def charData (doc : Document) (id : NodeId) : Option String :=
  match doc.kind id with
  | some (.text text) => some text
  | _ => none

/-- The pieces that the text of a node is collected from. -/
def pieces (doc : Document) (id : NodeId) : List String :=
  match doc.kind id with
  | some (.text text) => [text]
  | some (.attr value) => [value]
  | some (.namespaceNode uri) => [uri]
  | some .root | some (.element _) => (doc.descendantsOf id).filterMap (charData doc)
  | _ => []

/-- The number of bytes of some texts. -/
def bytes (values : List String) : Nat :=
  (values.map String.utf8ByteSize).sum

/-- The outcome of collecting: a value, if the budget has room for the bytes it takes. -/
def charge {α : Type} (value : α) (size remaining : Nat) : Except String (α × Nat) :=
  if size ≤ remaining then .ok (value, remaining - size)
  else .error "query output exceeds the string byte limit"

@[simp] lemma bytes_nil : bytes [] = 0 := rfl

@[simp] lemma bytes_cons (v : String) (values : List String) :
    bytes (v :: values) = v.utf8ByteSize + bytes values := by
  simp [bytes]

lemma utf8ByteSize_join (values : List String) :
    (String.join values).utf8ByteSize = bytes values := by
  induction values with
  | nil => rfl
  | cons v values ih => rw [String.join_cons, String.utf8ByteSize_append, ih, bytes_cons]

lemma charge_ok {α : Type} {value value' : α} {size remaining rest : Nat} :
    charge value size remaining = .ok (value', rest) ↔
      size ≤ remaining ∧ value' = value ∧ rest = remaining - size := by
  rw [charge]
  split
  · simp [‹size ≤ remaining›, eq_comm]
  · simp [‹¬ size ≤ remaining›]

lemma append_eq (out text : String) (remaining : Nat) :
    append out text remaining = charge (out ++ text) text.utf8ByteSize remaining := by
  rw [append, checkedSub, charge]
  by_cases room : text.utf8ByteSize ≤ remaining
  · rw [if_pos room, if_pos room]
  · rw [if_neg room, if_neg room]

lemma appendChild_some {doc : Document} {child : NodeId} {t : String}
    (h : charData doc child = some t) (out : String) (remaining : Nat) :
    appendChild doc (out, remaining) child = charge (out ++ t) t.utf8ByteSize remaining := by
  unfold charData at h
  split at h
  · next kind => rw [appendChild, kind, ← append_eq, Option.some.inj h]
  · cases h

lemma appendChild_none {doc : Document} {child : NodeId} (h : charData doc child = none)
    (state : String × Nat) : appendChild doc state child = .ok state := by
  unfold charData at h
  split at h
  · cases h
  · next other =>
    rw [appendChild]
    split
    · next kind => exact absurd kind (other _)
    · rfl

/-- Two charges in a row are one charge. -/
lemma charge_bind {α β : Type} (a : α) (size remaining : Nat) (b : β) (size' : Nat)
    (f : α × Nat → Except String (β × Nat)) (h : ∀ n, f (a, n) = charge b size' n) :
    (charge a size remaining >>= f) = charge b (size + size') remaining := by
  by_cases first : size ≤ remaining
  · rw [charge, if_pos first]
    show f (a, remaining - size) = _
    rw [h, charge, charge, Nat.sub_sub]
    exact if_congr (by omega) rfl rfl
  · rw [charge, if_neg first, charge, if_neg (by omega)]
    rfl

/-- The loop over the descendants appends their texts, and charges for each. -/
lemma foldlM_appendChild (doc : Document) (ids : List NodeId) (out : String) (remaining : Nat) :
    ids.foldlM (appendChild doc) (out, remaining) =
      charge (out ++ String.join (ids.filterMap (charData doc)))
        (bytes (ids.filterMap (charData doc))) remaining := by
  induction ids generalizing out remaining with
  | nil => simp [charge, pure, Except.pure]
  | cons id ids ih =>
    rw [List.foldlM_cons]
    cases h : charData doc id with
    | none =>
      rw [appendChild_none h, List.filterMap_cons_none h]
      exact ih out remaining
    | some t =>
      rw [appendChild_some h, List.filterMap_cons_some h, bytes_cons, String.join_cons,
        ← String.append_assoc]
      exact charge_bind _ _ _ _ _ _ fun n => ih (out ++ t) n

/-- A node is reported by the pieces of its text, if the budget has room for them. -/
theorem text_eq (doc : Document) (id : NodeId) (remaining : Nat) :
    text doc id remaining =
      charge (String.join (pieces doc id)) (bytes (pieces doc id)) remaining := by
  rw [text, directText, pieces]
  cases doc.kind id with
  | none => simp [charge]
  | some k =>
    cases k with
    | text t => simp [append_eq]
    | attr t => simp [append_eq]
    | namespaceNode t => simp [append_eq]
    | root => simpa using foldlM_appendChild doc (doc.descendantsOf id) "" remaining
    | element => simpa using foldlM_appendChild doc (doc.descendantsOf id) "" remaining
    | comment => simp [charge]
    | processingInstruction => simp [charge]

/-- The nodes of a node-set are reported so from one budget. -/
theorem texts_eq (doc : Document) (ids : List NodeId) (remaining : Nat) :
    texts doc ids remaining =
      charge (ids.map fun id => String.join (pieces doc id))
        (ids.map fun id => bytes (pieces doc id)).sum remaining := by
  induction ids generalizing remaining with
  | nil => simp [texts, charge]
  | cons id ids ih =>
    rw [texts, text_eq, List.map_cons, List.map_cons, List.sum_cons]
    apply charge_bind
    intro n
    show (texts doc ids n >>= _) = _
    rw [ih]
    exact charge_bind _ _ _ _ 0 _ fun n => by simp [charge]

end OxmlMcp.Tools
