import VectorBench.Chart.Ticks
import VectorBench.Record
import VectorBench.Text

/-!
# Search-time chart

A bar for every engine, in the order of invocation.  The plot is 300 pixels high above the pixel
line 343 and starts at the pixel column 80.  Its width is cut into slots, one for every engine and
one more at the end; a bar fills its slot but for a margin on either side, and the name of an engine
is centred below its slot.  The vertical axis reaches a tenth above the longest time, and up to one
when there is none above zero.  Marks that would stand above the plot are left out.
-/

namespace VectorBench

/-- A rectangle by its upper left corner. -/
structure Bar where
  x : Int
  y : Int
  width : Int
  height : Int
  deriving DecidableEq, Repr

/-- A text centred on a pixel column. -/
structure AxisLabel where
  x : Int
  text : String
  deriving DecidableEq, Repr

/-- A mark of the vertical axis at a pixel line. -/
structure Tick where
  y : Int
  text : String
  deriving DecidableEq, Repr

/-- The parts of a chart in pixels. -/
structure Chart where
  bars : List Bar
  labels : List AxisLabel
  ticks : List Tick
  deriving DecidableEq, Repr

/-- The pixel line of zero. -/
def baseLine : Int := 343

/-- The pixels between zero and the bound of the vertical axis. -/
def plotHeight : Nat := 300

/-- The pixel column where the first slot starts. -/
def plotLeft : Int := 80

/-- The pixels for all slots. -/
def plotWidth : Nat := 543

/-- The pixels between a bar and the ends of its slot. -/
def barMargin : Int := 24

/-- What keeps a position that is all but a whole pixel from losing that pixel. -/
def pixelSlack : Binary64 := decimal64 1 (-3)

/-- The bound of the vertical axis for some search times. -/
def axisBound (seconds : List Binary64) : Binary64 :=
  let longest := seconds.foldl Binary.max (.zero false)
  if longest.isPositive then longest * decimal64 11 (-1) else whole64 1

/-- The pixel line of a value on an axis with the given bound. -/
def pixelLine (bound value : Binary64) : Int :=
  baseLine + ((whole64 plotHeight).neg * (value / bound) - pixelSlack).ceilInt

def lastSlotWidth (count : Nat) : Int := (whole64 plotWidth / whole64 (count + 1)).roundInt

/-- The pixel column where the slot `k` of `count + 1` starts. -/
def slotStart (count k : Nat) : Int :=
  let width := Binary.ofInt .double (plotWidth - lastSlotWidth count)
  plotLeft + (width * (whole64 k / whole64 count) + pixelSlack).floorInt

def barAt (bound : Binary64) (count k : Nat) (value : Binary64) : Bar :=
  let x := slotStart count k + barMargin
  let y := pixelLine bound value
  ⟨x, y, slotStart count (k + 1) - barMargin - x, baseLine - y⟩

/-- The pixel column below which the name of slot `k` is centred. -/
def slotCentre (count k : Nat) : Int :=
  if k < count then (slotStart count k + slotStart count (k + 1)) / 2
  else slotStart count k + lastSlotWidth count / 2

namespace Chart

/-- The chart of the search times of some engines.  Where the search for the marks does not end,
drawing does not end either. -/
def ofSeries (series : List (String × Binary64)) : Chart :=
  let bound := axisBound (series.map (·.2))
  let count := max series.length 1
  { bars := series.mapIdx fun k entry => barAt bound count k entry.2
    labels := (List.range (count + 1)).map fun k =>
      ⟨slotCentre count k, ((series[k]?).map (·.1)).getD ""⟩
    ticks := ((tickValues bound).map fun value => ⟨pixelLine bound value, tickText value⟩).filter
      fun tick => baseLine - plotHeight ≤ tick.y }

def ofRecord (r : Record) : Chart := ofSeries r.searchSeries

/-! ## Drawing -/

def title : String := "Search Time"

def axisTitle : String := "Seconds"

def attributeText (name : String) (value : Int) : String :=
  " " ++ name ++ "=\"" ++ toString value ++ "\""

/-- A rectangle.  One that ends left of its start keeps its negative width. -/
def rectangle (fill : String) (b : Bar) : String :=
  "<rect" ++ attributeText "x" b.x ++ attributeText "y" b.y ++ attributeText "width" b.width ++
    attributeText "height" b.height ++ " fill=\"" ++ fill ++ "\"/>\n"

def textAt (x y : Int) (anchor text : String) : String :=
  "<text" ++ attributeText "x" x ++ attributeText "y" y ++ " text-anchor=\"" ++ anchor ++ "\">" ++
    markupText text ++ "</text>\n"

/-- The drawing of a chart, 640 pixels wide and 400 high, as an element to put into a page. -/
def svg (c : Chart) : String :=
  "<svg width=\"640\" height=\"400\" viewBox=\"0 0 640 400\">\n" ++
    rectangle "#FFFFFF" ⟨0, 0, 640, 400⟩ ++
    textAt 320 30 "middle" title ++ textAt 20 193 "middle" axisTitle ++
    rectangle "#000000" ⟨plotLeft, baseLine - plotHeight, 1, plotHeight⟩ ++
    rectangle "#000000" ⟨plotLeft, baseLine, plotWidth, 1⟩ ++
    String.join (c.ticks.map fun tick => textAt (plotLeft - 8) tick.y "end" tick.text) ++
    String.join (c.labels.map fun label => textAt label.x (baseLine + 20) "middle" label.text) ++
    String.join (c.bars.map (rectangle "#1F77B4")) ++ "</svg>\n"

end Chart

end VectorBench
