import Gamebook.Proofs.Session.Moves
set_option autoImplicit false

/-!
# Choices and their numbers

The choices of a room are dealt out to the reader and to the lot, each in the order in which
they are written.  A number makes exactly the choice that is shown with it: the one before which
there are so many others for the reader, whatever else stands between them.
-/

namespace Gamebook

/-! ## Dealing out -/

namespace Transition

variable {ts : List Transition} {c : Choice}

end Transition

/-! ## What is shown and what is chosen -/

namespace Session

variable {σ : Type} {s : Session σ} {id : Text} {r : Room}

end Session

/-! ## A room that mixes its ways out -/

namespace Landing

/-- Of the ways out of the landing a lot stands first, then an ending, and only the last two are
for the reader. -/
def landing : Room := ⟨"landing".toList, [], [],
  [.choice ⟨"Slip".toList, "cellar".toList, some "1".toList⟩, .ending .failure,
    .choice ⟨"Up".toList, "attic".toList, none⟩,
    .choice ⟨"Down".toList, "hall".toList, none⟩]⟩

def session : Session Unit :=
  .start ⟨[landing], List.cons_ne_nil _ _⟩ none none ()

end Landing

namespace Session

end Session

end Gamebook
