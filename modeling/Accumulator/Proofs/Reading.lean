import Accumulator.Repl.Read
/-!
# Lines of an input

The lines of an input are the segments of its bytes between newlines.  An input of data alone is read
line by line whatever the sizes of its items are, as long as no hundred items in a row are empty.
Among failures too, an item may be handed over in parts, as a buffer does with long ones.
-/

namespace Accumulator.Proofs.Reading

open Read

/-- The segments of a text between its newlines; the last one has none behind it. -/
def segments (text : Bytes) : List Bytes :=
  text.splitOn Bytes.newline

/-- The reads that give the segments of a text.  There is none for an empty last segment, which is
what every read after the last item gives. -/
def readsOf : List Bytes → List Read
  | [] => []
  | [last] => if last = [] then [] else [⟨last, some .endOfInput⟩]
  | segment :: next :: rest => ⟨segment ++ [Bytes.newline], none⟩ :: readsOf (next :: rest)

theorem segments_ne_nil (text : Bytes) : segments text ≠ [] :=
  List.splitOn_ne_nil _ _

theorem segments_newline (rest : Bytes) :
    segments (Bytes.newline :: rest) = [] :: segments rest := by
  rw [segments, List.splitOn_cons_eq_if_modifyHead, if_pos (beq_self_eq_true _)]
  rfl

theorem segments_cons {b : UInt8} (hb : b ≠ Bytes.newline) (rest : Bytes) :
    segments (b :: rest) = (segments rest).modifyHead (b :: ·) := by
  rw [segments, List.splitOn_cons_eq_if_modifyHead, if_neg (by simpa using hb)]
  rfl

theorem readsOf_cons (segment : Bytes) {rest : List Bytes} (hrest : rest ≠ []) :
    readsOf (segment :: rest) = ⟨segment ++ [Bytes.newline], none⟩ :: readsOf rest := by
  cases rest with
  | nil => exact absurd rfl hrest
  | cons next rest => rfl

theorem modifyHead_nil_append (parts : List Bytes) : parts.modifyHead ([] ++ ·) = parts := by
  cases parts <;> rfl

/-! ## Bytes -/

def finish (state : Pending × List Read) : List Read :=
  let last := if state.1.gathered = [] then [] else [state.1.cut .endOfInput]
  (last ++ state.2).reverse

theorem ofItems_eq_finish (items : List Item) :
    ofItems items = finish (items.foldl takeItem ({}, [])) := rfl

theorem finish_foldl_takeByte (bytes : Bytes) (p : Pending) (done : List Read) :
    finish (bytes.foldl takeByte (p, done)) =
      done.reverse ++ readsOf ((segments bytes).modifyHead (p.gathered.reverse ++ ·)) := by
  induction bytes generalizing p done with
  | nil =>
      have hsegments : (segments []).modifyHead (p.gathered.reverse ++ ·) = [p.gathered.reverse] := by
        simp [segments]
      rw [hsegments, List.foldl_nil, finish, readsOf, List.reverse_append]
      by_cases hgathered : p.gathered = []
      · simp [hgathered]
      · simp [hgathered, Pending.cut]
  | cons b rest ih =>
      rw [List.foldl_cons]
      by_cases hb : b = Bytes.newline
      · have htake : takeByte (p, done) b =
            ({}, ⟨p.gathered.reverse ++ [Bytes.newline], none⟩ :: done) := by
          simp [takeByte, hb]
        rw [htake, ih, hb, segments_newline, List.modifyHead_cons,
          readsOf_cons _ (segments_ne_nil rest), List.reverse_nil, modifyHead_nil_append]
        simp
      · have htake : takeByte (p, done) b = ({ gathered := b :: p.gathered }, done) := by
          simp [takeByte, hb]
        rw [htake, ih, segments_cons hb, List.modifyHead_modifyHead]
        simp [Function.comp_def]

/-! ## Items -/

theorem takeItem_data (state : Pending × List Read) {bytes : Bytes} (hbytes : bytes ≠ []) :
    takeItem state (.data bytes) = bytes.foldl takeByte state := by
  cases bytes with
  | nil => exact absurd rfl hbytes
  | cons b rest => rfl

/-- An item that is handed over in two parts is read like the whole, in any input. -/
theorem ofItems_cut_item (before after : List Item) {first second : Bytes} (hfirst : first ≠ [])
    (hsecond : second ≠ []) :
    ofItems (before ++ .data first :: .data second :: after) =
      ofItems (before ++ .data (first ++ second) :: after) := by
  have hboth : first ++ second ≠ [] := List.append_ne_nil_of_left_ne_nil hfirst second
  rw [ofItems_eq_finish, ofItems_eq_finish, List.foldl_append, List.foldl_append,
    List.foldl_cons, List.foldl_cons, List.foldl_cons, takeItem_data _ hfirst,
    takeItem_data _ hsecond, takeItem_data _ hboth, List.foldl_append]

/-- What is gathered and done; the rest of a state only counts empty items. -/
def view (state : Pending × List Read) : Bytes × List Read :=
  (state.1.gathered, state.2)

theorem finish_eq_of_view_eq {s t : Pending × List Read} (hview : view s = view t) :
    finish s = finish t := by
  obtain ⟨hgathered, hdone⟩ := Prod.mk.inj hview
  simp only [finish, Pending.cut, hgathered, hdone]

theorem view_foldl_takeByte {s t : Pending × List Read} (hview : view s = view t)
    (bytes : Bytes) : view (bytes.foldl takeByte s) = view (bytes.foldl takeByte t) := by
  induction bytes generalizing s t with
  | nil => exact hview
  | cons b rest ih =>
      obtain ⟨hgathered, hdone⟩ := Prod.mk.inj hview
      apply ih
      simp only [takeByte, hgathered, hdone]

theorem idle_foldl_takeByte (state : Pending × List Read) (b : UInt8) (bytes : Bytes) :
    ((b :: bytes).foldl takeByte state).1.idle = 0 := by
  induction bytes generalizing state b with
  | nil =>
      rw [List.foldl_cons, List.foldl_nil, takeByte]
      split <;> rfl
  | cons next bytes ih => exact ih (takeByte state b) next

/-- No hundred items in a row are empty, when `idle` empty ones came before them. -/
def Quiet (idle : Nat) (items : List Bytes) : Prop :=
  ¬ List.replicate idleLimit [] <:+: List.replicate idle [] ++ items

theorem Quiet.succ {idle : Nat} {items : List Bytes} (hquiet : Quiet idle ([] :: items)) :
    Quiet (idle + 1) items := by
  unfold Quiet at hquiet ⊢
  rw [List.replicate_succ', List.append_assoc]
  exact hquiet

theorem Quiet.succ_ne_limit {idle : Nat} {items : List Bytes} (hquiet : Quiet idle ([] :: items)) :
    idle + 1 ≠ idleLimit := by
  intro hlimit
  have hsucc := hquiet.succ
  rw [hlimit] at hsucc
  exact hsucc (List.prefix_append _ _).isInfix

theorem Quiet.tail {idle : Nat} {item : Bytes} {items : List Bytes}
    (hquiet : Quiet idle (item :: items)) : Quiet 0 items := by
  intro hempty
  have hsuffix : items <:+ List.replicate idle [] ++ item :: items :=
    (List.suffix_cons item items).trans (List.suffix_append _ _)
  exact hquiet (hempty.trans hsuffix.isInfix)

theorem view_foldl_takeItem (items : List Bytes) (state : Pending × List Read)
    (hquiet : Quiet state.1.idle items) :
    view ((items.map Item.data).foldl takeItem state) =
      view (items.flatten.foldl takeByte state) := by
  induction items generalizing state with
  | nil => rfl
  | cons item items ih =>
      rw [List.map_cons, List.foldl_cons, List.flatten_cons, List.foldl_append]
      cases item with
      | nil =>
          have htake : takeItem state (.data []) =
              ({ state.1 with idle := state.1.idle + 1 }, state.2) :=
            if_neg hquiet.succ_ne_limit
          rw [htake, ih _ hquiet.succ]
          apply view_foldl_takeByte
          rfl
      | cons b bytes =>
          rw [takeItem_data state (List.cons_ne_nil b bytes)]
          apply ih ((b :: bytes).foldl takeByte state)
          rw [idle_foldl_takeByte]
          exact hquiet.tail

theorem ofItems_data {items : List Bytes} (hquiet : ¬ List.replicate idleLimit [] <:+: items) :
    ofItems (items.map .data) = readsOf (segments items.flatten) := by
  have hview := view_foldl_takeItem items ({}, []) hquiet
  rw [ofItems_eq_finish, finish_eq_of_view_eq hview, finish_foldl_takeByte]
  exact congrArg readsOf (modifyHead_nil_append _)

end Accumulator.Proofs.Reading
