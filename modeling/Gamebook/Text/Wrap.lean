import Gamebook.Text
set_option autoImplicit false

/-!
# Wrapped text

A paragraph is cut into *chunks*, the runs of spaces and the runs of everything
else, and the chunks are packed into rows of a given width.  A chunk that is
wider than a row is cut where the row it starts in is full.  Blank chunks are
dropped at the end of a row and at the start of every row but the first.
-/

namespace Gamebook.Text

/-! ## Chunks -/

/-- The text with every tab replaced by the spaces up to the next multiple of
eight columns; `column` is where the text starts. -/
def expandTabs (column : Nat) : Text → Text
  | [] => []
  | c :: rest =>
    if c = '\t' then List.replicate (8 - column % 8) ' ' ++ expandTabs 0 rest
    else if c = '\n' ∨ c = '\r' then c :: expandTabs 0 rest
    else c :: expandTabs (column + 1) rest

/-- The characters at which a paragraph may be broken. -/
def isGap (c : Char) : Bool :=
  c == ' ' || (0x09 ≤ c.toNat && c.toNat ≤ 0x0D)

/-- The runs of spaces and of other characters of a paragraph, once its tabs are
expanded and all its gaps are spaces. -/
def chunks (paragraph : Text) : List Text :=
  ((expandTabs 0 paragraph).map fun c => if isGap c then ' ' else c).splitBy
    fun a b => (a == ' ') == (b == ' ')

/-! ## Rows -/

/-- The chunks that fit into a row with so much room left, the chunks after them,
and the room that then remains. -/
def takeFitting (room : Nat) : List Text → List Text × List Text × Nat
  | [] => ([], [], room)
  | w :: ws =>
    if w.length ≤ room then
      let (taken, rest, left) := takeFitting (room - w.length) ws
      (w :: taken, rest, left)
    else ([], w :: ws, room)

/-- The chunks of one row and the chunks left for the next rows: as many as fit,
and the start of the next one if it is wider than a whole row. -/
def takeRow (width : Nat) (ws : List Text) : List Text × List Text :=
  match takeFitting width ws with
  | (taken, [], _) => (taken, [])
  | (taken, w :: rest, left) =>
    if width < w.length then (taken ++ [w.take left], w.drop left :: rest)
    else (taken, w :: rest)

/-- The chunks of a row without its last one, if that is blank. -/
def dropBlankEnd (row : List Text) : List Text :=
  match row.getLast? with
  | some w => if isAllBlank w then row.dropLast else row
  | none => row

/-- The chunks without the first one, if that is blank. -/
def dropBlankStart : List Text → List Text
  | [] => []
  | w :: ws => if isAllBlank w then ws else w :: ws

/-- What is left to pack: every chunk counts its characters and one more. -/
def packSize : List Text → Nat
  | [] => 0
  | w :: ws => w.length + 1 + packSize ws

theorem packSize_cons (w : Text) (ws : List Text) :
    packSize (w :: ws) = w.length + 1 + packSize ws := rfl

theorem packSize_dropBlankStart_le (ws : List Text) :
    packSize (dropBlankStart ws) ≤ packSize ws := by
  cases ws with
  | nil => simp [dropBlankStart]
  | cons w ws =>
    simp only [dropBlankStart]
    split
    · rw [packSize_cons]; omega
    · exact Nat.le_refl _

theorem packSize_takeFitting_le (room : Nat) (ws : List Text) :
    packSize (takeFitting room ws).2.1 ≤ packSize ws := by
  induction ws generalizing room with
  | nil => simp [takeFitting]
  | cons w ws ih =>
    simp only [takeFitting]
    split
    · have hle : packSize (takeFitting (room - w.length) ws).2.1 ≤ packSize ws := ih _
      rw [packSize_cons]
      exact Nat.le_trans hle (Nat.le_add_left _ _)
    · exact Nat.le_refl _

/-- A row takes something off the chunks, as long as it has any width. -/
theorem packSize_takeRow_lt {width : Nat} (hw : 0 < width) (w : Text) (ws : List Text) :
    packSize (takeRow width (w :: ws)).2 < packSize (w :: ws) := by
  by_cases hfit : w.length ≤ width
  · have hle := packSize_takeFitting_le (width - w.length) ws
    simp only [takeRow, takeFitting, hfit, if_true]
    generalize takeFitting (width - w.length) ws = found at hle
    obtain ⟨taken, rest, left⟩ := found
    cases rest with
    | nil =>
      rw [packSize_cons]
      exact Nat.lt_of_lt_of_le (Nat.succ_pos w.length) (Nat.le_add_right _ _)
    | cons v rest =>
      simp only [packSize_cons] at hle ⊢
      split
      · simp only [packSize_cons, List.length_drop]; omega
      · simp only [packSize_cons]; omega
  · simp only [takeRow, takeFitting, hfit, if_false]
    rw [if_pos (by omega)]
    simp only [packSize_cons, List.length_drop]
    omega

/-- The rows into which chunks are packed; `first` tells whether no row stands
before them.  A row that holds only a blank chunk is left out. -/
def rows (width : Nat) (hw : 0 < width) (first : Bool) : List Text → List Text
  | [] => []
  | w :: ws =>
    let rest := (takeRow width (w :: ws)).2
    match dropBlankEnd (takeRow width (w :: ws)).1 with
    | [] => rows width hw first (if first then rest else dropBlankStart rest)
    | row => row.flatten :: rows width hw false (dropBlankStart rest)
termination_by ws => packSize ws
decreasing_by
  all_goals
    have hlt := packSize_takeRow_lt hw w ws
    have hle := packSize_dropBlankStart_le (takeRow width (w :: ws)).2
    try split
    all_goals omega

/-- The rows of a paragraph; one empty row when nothing of it remains. -/
def wrapParagraph (width : Nat) (hw : 0 < width) (paragraph : Text) : List Text :=
  match rows width hw true (chunks paragraph) with
  | [] => [[]]
  | row :: more => row :: more

/-- The rows of a text, paragraph by paragraph.  Without a positive width nothing
is wrapped and every paragraph is a row. -/
def wrap (width : Int) (s : Text) : List Text :=
  if hw : 0 < width.toNat then (paragraphs s).flatMap (wrapParagraph width.toNat hw)
  else paragraphs s

end Gamebook.Text
