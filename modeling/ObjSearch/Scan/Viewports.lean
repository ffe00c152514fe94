/- The viewport that the host reports to the plugin.
   digest: What SetCurrentViewPort keeps of it, and what is there before the first report. -/

import Mathlib.Data.Rat.Defs

set_option autoImplicit false
set_option relaxedAutoImplicit false

namespace ObjSearch.Scan.Viewports

/-- `PlugIn_ViewPort`, as far as the plugin reads it. -/
structure ViewPort where
  clat : ℚ
  clon : ℚ
  view_scale_ppm : ℚ
  chart_scale : ℚ
  lat_min : ℚ
  lat_max : ℚ
  lon_min : ℚ
  lon_max : ℚ

structure View where
  vplat : ℚ
  vplon : ℚ
  vpppm : ℚ
  vpscale : ℚ
  vplat_min : ℚ
  vplat_max : ℚ
  vplon_min : ℚ
  vplon_max : ℚ

/-- After the constructor and `Init`, which sets `m_vpppm` to the double `0.1`. -/
def View.init : View :=
  ⟨0, 0, 3602879701896397 / 36028797018963968, 0, 0, 0, 0, 0⟩

def setCurrentViewPort (_ : View) (vp : ViewPort) : View where
  vplat := vp.clat
  vplon := vp.clon
  vpppm := vp.view_scale_ppm
  vpscale := vp.chart_scale
  vplat_max := vp.lat_max
  vplat_min := vp.lat_min
  vplon_max := vp.lon_max
  vplon_min := vp.lon_min

def calculatePPM (v : View) (scale : ℚ) : ℚ := v.vpscale / scale * v.vpppm

end ObjSearch.Scan.Viewports
