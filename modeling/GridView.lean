import GridView.Text.Replace
import GridView.Text.Touch
import GridView.Text.Splice
import GridView.Text.Run
import GridView.Text.Marks
import GridView.Text.Utf8
import GridView.Branding.Terminology
import GridView.Integrator.BootstrapUrls
import GridView.Integrator.Insertions
import GridView.Integrator.Http
import GridView.Integrator.Proxy
import GridView.Integrator.ApiProxy
import GridView.Integrator.Pages
import GridView.Integrator.RouteMapper
import GridView.Integrator.Static
import GridView.Integrator.Routes
import GridView.App.Static
