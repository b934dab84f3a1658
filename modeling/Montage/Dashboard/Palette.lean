/-!
The colours of the dashboard.
-/

namespace Montage.Dashboard.Palette

def foreground : String := "#D8DEE9"

def dim : String := "#4C566A"

def header : String := "#88C0D0"

def command : String := "#ECEFF4"

def flags : String := "#81A1C1"

def numbers : String := "#B48EAD"

def paths : String := "#A3BE8C"

def strings : String := "#EBCB8B"

def warning : String := "#D08770"

def failure : String := "#BF616A"

def bold (colour : String) : String := "bold " ++ colour

end Montage.Dashboard.Palette
