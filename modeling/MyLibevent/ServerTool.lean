import Mathlib

/-!
# Rectangles and linked nodes

`CWTRect` of `framework/base/server_tool.h`: rectangles given by their inclusive corners. Coordinates are integers
that do not overflow.
-/

namespace MyLibevent

/-- `CWTPoint`. -/
structure CWTPoint where
  mX : Int
  mY : Int

/-- `CWTRect`: two corners. -/
structure CWTRect where
  mTopLeft : CWTPoint
  mBottomRight : CWTPoint

namespace CWTRect

def height (r : CWTRect) : Int := r.mBottomRight.mY - r.mTopLeft.mY + 1

def width (r : CWTRect) : Int := r.mBottomRight.mX - r.mTopLeft.mX + 1

def isRectEmpty (r : CWTRect) : Bool := decide (r.width ≤ 0) || decide (r.height ≤ 0)

def ptInRect (r : CWTRect) (p : CWTPoint) : Bool :=
  if r.isRectEmpty then false
  else if p.mX < r.mTopLeft.mX ∨ p.mX > r.mBottomRight.mX then false
  else if p.mY < r.mTopLeft.mY ∨ p.mY > r.mBottomRight.mY then false
  else true

/-- `IntersectRect`: whether there is an intersection. -/
def intersectRect (r₁ r₂ : CWTRect) : Bool :=
  if r₁.isRectEmpty || r₂.isRectEmpty then false
  else
    let left := max r₁.mTopLeft.mX r₂.mTopLeft.mX
    let top := max r₁.mTopLeft.mY r₂.mTopLeft.mY
    let right := min r₁.mBottomRight.mX r₂.mBottomRight.mX
    let bottom := min r₁.mBottomRight.mY r₂.mBottomRight.mY
    !(CWTRect.mk ⟨left, top⟩ ⟨right, bottom⟩).isRectEmpty

def subtractRect (r des : CWTRect) : List CWTRect :=
  if intersectRect r des = false then [des]
  else
    let top := max r.mTopLeft.mY des.mTopLeft.mY
    let bottom := min r.mBottomRight.mY des.mBottomRight.mY
    let topRect := ⟨des.mTopLeft, ⟨des.mBottomRight.mX, r.mTopLeft.mY - 1⟩⟩
    let leftRect := ⟨⟨des.mTopLeft.mX, top⟩, ⟨r.mTopLeft.mX - 1, bottom⟩⟩
    let bottomRect := ⟨⟨des.mTopLeft.mX, r.mBottomRight.mY + 1⟩, des.mBottomRight⟩
    let rightRect := ⟨⟨r.mBottomRight.mX + 1, top⟩, ⟨des.mBottomRight.mX, bottom⟩⟩
    [topRect, leftRect, bottomRect, rightRect].filter fun piece => piece.isRectEmpty = false

end CWTRect

end MyLibevent
