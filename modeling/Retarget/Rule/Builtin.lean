import Retarget.Rule.ApiTarget
import Retarget.Rule.TypeMap

/-
  This file holds the rules and renamings that always apply,
  and adds those of the files that come with a project.

  Key definitions include:
    * `AdditionalText`
    * `ApiRule.builtin`
    * `ApiRule.ofFiles`
    * `TypeMap.builtin`
    * `TypeMap.load`
-/

namespace Retarget

/- A file of rules or renamings that comes with the sources. -/
structure AdditionalText where
  path : Path
  text : String
  deriving Repr, DecidableEq, Inhabited

------------------------------------------------------------
-- Rules
------------------------------------------------------------

namespace ApiRule

def builtin : List ApiRule :=
  [
    { id := "HtmlHelper"
      targets := [
        ⟨"System.Web.Mvc.HtmlHelper", .type, true⟩,
        ⟨"System.Web.WebPages.HelperResult", .type, false⟩]
      message :=
        "HtmlHelper and HelperResult should be replaced with " ++
          "IHtmlHelper and IHtmlContent from " ++
          "Microsoft.AspNetCore.Mvc.Rendering and " ++
          "Microsoft.AspNetCore.Html." },
    { id := "HttpContextCurrent"
      targets := [
        ⟨"System.Web.HttpContext.Current", .member, true⟩]
      message :=
        "HttpContext.Current is not available in ASP.NET Core. " ++
          "Inject IHttpContextAccessor or pass HttpContext explicitly." },
    { id := "HttpContextIsDebuggingEnabled"
      targets := [
        ⟨"System.Web.HttpContext.IsDebuggingEnabled", .member, false⟩]
      message :=
        "HttpContext.IsDebuggingEnabled has no ASP.NET Core " ++
          "equivalent. Use IWebHostEnvironment.IsDevelopment() instead." },
    { id := "FilterCollection"
      targets := [
        ⟨"System.Web.Mvc.GlobalFilterCollection", .type, true⟩,
        ⟨"System.Web.Mvc.GlobalFilters", .type, false⟩]
      message :=
        "Global MVC filters are registered through " ++
          "MvcOptions.Filters in ASP.NET Core." },
    { id := "BundleConfig"
      targets := [
        ⟨"System.Web.Optimization", .nameSpace, true⟩,
        ⟨"System.Web.Optimization.BundleCollection", .type, false⟩]
      message :=
        "System.Web.Optimization bundling is not supported in " ++
          "ASP.NET Core. Bundle and minify static assets at build time " ++
          "instead." },
    { id := "RouteCollection"
      targets := [
        ⟨"System.Web.Routing.RouteCollection", .type, false⟩,
        ⟨"System.Web.Routing.RouteTable", .type, false⟩]
      message :=
        "Routes are configured with endpoint routing " ++
          "(MapControllerRoute) in ASP.NET Core." },
    { id := "ControllerUrl"
      targets := [
        ⟨"System.Web.Mvc.Controller.Url", .member, false⟩]
      message :=
        "Controller.Url returns IUrlHelper in ASP.NET Core; " ++
          "UrlHelper extension methods may need to be updated." },
    { id := "BinaryFormatter"
      targets := [
        ⟨"System.Runtime.Serialization.Formatters.Binary.BinaryFormatter", .type, false⟩]
      message :=
        "BinaryFormatter is obsolete and disabled by default in " ++
          ".NET. Use System.Text.Json or another serializer." },
    { id := "AppDomainCreate"
      targets := [
        ⟨"System.AppDomain.CreateDomain", .member, true⟩]
      message :=
        "AppDomain.CreateDomain is not supported in .NET. Use " ++
          "AssemblyLoadContext or separate processes for isolation." },
    { id := "RemotingServices"
      targets := [
        ⟨"System.Runtime.Remoting", .nameSpace, true⟩]
      message :=
        ".NET Remoting is not supported in .NET. Consider gRPC, " ++
          "StreamJsonRpc or another IPC mechanism." }]

def fileExtension : String :=
  "apitargets"

/- The rules of some files; a file that is not valid adds none. -/
def ofFiles (files : List AdditionalText) : List ApiRule :=
  files.flatMap fun f =>
    if hasExtension f.path fileExtension then
      (parseTable f.path f.text).toOption.getD []
    else []

end ApiRule

------------------------------------------------------------
-- Renamings
------------------------------------------------------------

namespace TypeMap

/- The web types that have a counterpart. -/
def web : List TypeMapping :=
  [
    ⟨"System.Web.Mvc.ActionResult",
      some "Microsoft.AspNetCore.Mvc.ActionResult"⟩,
    ⟨"System.Web.Mvc.ContentResult",
      some "Microsoft.AspNetCore.Mvc.ContentResult"⟩,
    ⟨"System.Web.Mvc.FileResult",
      some "Microsoft.AspNetCore.Mvc.FileResult"⟩,
    ⟨"System.Web.Mvc.HttpNotFoundResult",
      some "Microsoft.AspNetCore.Mvc.NotFoundResult"⟩,
    ⟨"System.Web.Mvc.HttpStatusCodeResult",
      some "Microsoft.AspNetCore.Mvc.StatusCodeResult"⟩,
    ⟨"System.Web.Mvc.HttpUnauthorizedResult",
      some "Microsoft.AspNetCore.Mvc.UnauthorizedResult"⟩,
    ⟨"System.Web.Mvc.JsonResult",
      some "Microsoft.AspNetCore.Mvc.JsonResult"⟩,
    ⟨"System.Web.Mvc.PartialViewResult",
      some "Microsoft.AspNetCore.Mvc.PartialViewResult"⟩,
    ⟨"System.Web.Mvc.RedirectResult",
      some "Microsoft.AspNetCore.Mvc.RedirectResult"⟩,
    ⟨"System.Web.Mvc.RedirectToRouteResult",
      some "Microsoft.AspNetCore.Mvc.RedirectToRouteResult"⟩,
    ⟨"System.Web.Mvc.ViewResult",
      some "Microsoft.AspNetCore.Mvc.ViewResult"⟩,
    ⟨"System.Web.Mvc.Controller",
      some "Microsoft.AspNetCore.Mvc.Controller"⟩,
    ⟨"System.Web.Mvc.FilterContext",
      some "Microsoft.AspNetCore.Mvc.Filters.FilterContext"⟩,
    ⟨"System.Web.Mvc.ActionExecutingContext",
      some "Microsoft.AspNetCore.Mvc.Filters.ActionExecutingContext"⟩,
    ⟨"System.Web.Mvc.ActionExecutedContext",
      some "Microsoft.AspNetCore.Mvc.Filters.ActionExecutedContext"⟩,
    ⟨"System.Web.Mvc.IActionFilter",
      some "Microsoft.AspNetCore.Mvc.Filters.IActionFilter"⟩,
    ⟨"System.Web.Mvc.IAuthorizationFilter",
      some "Microsoft.AspNetCore.Mvc.Filters.IAuthorizationFilter"⟩,
    ⟨"System.Web.Mvc.IExceptionFilter",
      some "Microsoft.AspNetCore.Mvc.Filters.IExceptionFilter"⟩,
    ⟨"System.Web.Mvc.IResultFilter",
      some "Microsoft.AspNetCore.Mvc.Filters.IResultFilter"⟩,
    ⟨"System.Web.Mvc.SelectListItem",
      some "Microsoft.AspNetCore.Mvc.Rendering.SelectListItem"⟩,
    ⟨"System.Web.Mvc.SelectList",
      some "Microsoft.AspNetCore.Mvc.Rendering.SelectList"⟩,
    ⟨"System.Web.Mvc.MultiSelectList",
      some "Microsoft.AspNetCore.Mvc.Rendering.MultiSelectList"⟩,
    ⟨"System.Web.Mvc.ModelStateDictionary",
      some "Microsoft.AspNetCore.Mvc.ModelBinding.ModelStateDictionary"⟩,
    ⟨"System.Web.Mvc.MvcHtmlString",
      some "Microsoft.AspNetCore.Html.HtmlString"⟩,
    ⟨"System.Web.HtmlString",
      some "Microsoft.AspNetCore.Html.HtmlString"⟩,
    ⟨"System.Web.IHtmlString",
      some "Microsoft.AspNetCore.Html.IHtmlContent"⟩,
    ⟨"System.Web.Http.ApiController",
      some "Microsoft.AspNetCore.Mvc.ControllerBase"⟩,
    ⟨"System.Web.Http.IHttpActionResult",
      some "Microsoft.AspNetCore.Mvc.IActionResult"⟩,
    ⟨"System.Web.Mvc.AllowAnonymousAttribute",
      some "Microsoft.AspNetCore.Authorization.AllowAnonymousAttribute"⟩,
    ⟨"System.Web.Mvc.AuthorizeAttribute",
      some "Microsoft.AspNetCore.Authorization.AuthorizeAttribute"⟩,
    ⟨"System.Web.Mvc.BindAttribute",
      some "Microsoft.AspNetCore.Mvc.BindAttribute"⟩,
    ⟨"System.Web.Mvc.HttpDeleteAttribute",
      some "Microsoft.AspNetCore.Mvc.HttpDeleteAttribute"⟩,
    ⟨"System.Web.Mvc.HttpGetAttribute",
      some "Microsoft.AspNetCore.Mvc.HttpGetAttribute"⟩,
    ⟨"System.Web.Mvc.HttpPostAttribute",
      some "Microsoft.AspNetCore.Mvc.HttpPostAttribute"⟩,
    ⟨"System.Web.Mvc.HttpPutAttribute",
      some "Microsoft.AspNetCore.Mvc.HttpPutAttribute"⟩,
    ⟨"System.Web.Mvc.NonActionAttribute",
      some "Microsoft.AspNetCore.Mvc.NonActionAttribute"⟩,
    ⟨"System.Web.Mvc.RouteAttribute",
      some "Microsoft.AspNetCore.Mvc.RouteAttribute"⟩,
    ⟨"System.Web.Mvc.ValidateAntiForgeryTokenAttribute",
      some "Microsoft.AspNetCore.Mvc.ValidateAntiForgeryTokenAttribute"⟩,
    ⟨"System.Web.Http.FromBodyAttribute",
      some "Microsoft.AspNetCore.Mvc.FromBodyAttribute"⟩,
    ⟨"System.Web.Http.FromUriAttribute",
      some "Microsoft.AspNetCore.Mvc.FromQueryAttribute"⟩,
    ⟨"System.Web.Http.HttpGetAttribute",
      some "Microsoft.AspNetCore.Mvc.HttpGetAttribute"⟩,
    ⟨"System.Web.Http.HttpPostAttribute",
      some "Microsoft.AspNetCore.Mvc.HttpPostAttribute"⟩,
    ⟨"System.Web.Http.RouteAttribute",
      some "Microsoft.AspNetCore.Mvc.RouteAttribute"⟩,
    ⟨"System.Web.Http.RoutePrefixAttribute",
      some "Microsoft.AspNetCore.Mvc.RouteAttribute"⟩,
    ⟨"System.Web.Mvc.ChildActionOnlyAttribute", none⟩,
    ⟨"System.Web.Mvc.OutputCacheAttribute", none⟩]

/- The desktop types that have a counterpart. -/
def windows : List TypeMapping :=
  [
    ⟨"Windows.UI.Xaml.Application",
      some "Microsoft.UI.Xaml.Application"⟩,
    ⟨"Windows.UI.Xaml.DependencyObject",
      some "Microsoft.UI.Xaml.DependencyObject"⟩,
    ⟨"Windows.UI.Xaml.DependencyProperty",
      some "Microsoft.UI.Xaml.DependencyProperty"⟩,
    ⟨"Windows.UI.Xaml.FrameworkElement",
      some "Microsoft.UI.Xaml.FrameworkElement"⟩,
    ⟨"Windows.UI.Xaml.RoutedEventArgs",
      some "Microsoft.UI.Xaml.RoutedEventArgs"⟩,
    ⟨"Windows.UI.Xaml.UIElement",
      some "Microsoft.UI.Xaml.UIElement"⟩,
    ⟨"Windows.UI.Xaml.Visibility",
      some "Microsoft.UI.Xaml.Visibility"⟩,
    ⟨"Windows.UI.Xaml.Window",
      some "Microsoft.UI.Xaml.Window"⟩,
    ⟨"Windows.UI.Xaml.Controls.Button",
      some "Microsoft.UI.Xaml.Controls.Button"⟩,
    ⟨"Windows.UI.Xaml.Controls.ContentDialog",
      some "Microsoft.UI.Xaml.Controls.ContentDialog"⟩,
    ⟨"Windows.UI.Xaml.Controls.Frame",
      some "Microsoft.UI.Xaml.Controls.Frame"⟩,
    ⟨"Windows.UI.Xaml.Controls.Grid",
      some "Microsoft.UI.Xaml.Controls.Grid"⟩,
    ⟨"Windows.UI.Xaml.Controls.Page",
      some "Microsoft.UI.Xaml.Controls.Page"⟩,
    ⟨"Windows.UI.Xaml.Controls.StackPanel",
      some "Microsoft.UI.Xaml.Controls.StackPanel"⟩,
    ⟨"Windows.UI.Xaml.Controls.TextBlock",
      some "Microsoft.UI.Xaml.Controls.TextBlock"⟩,
    ⟨"Windows.UI.Xaml.Controls.TextBox",
      some "Microsoft.UI.Xaml.Controls.TextBox"⟩,
    ⟨"Windows.UI.Xaml.Controls.UserControl",
      some "Microsoft.UI.Xaml.Controls.UserControl"⟩,
    ⟨"Windows.UI.Xaml.Data.IValueConverter",
      some "Microsoft.UI.Xaml.Data.IValueConverter"⟩,
    ⟨"Windows.UI.Xaml.Data.Binding",
      some "Microsoft.UI.Xaml.Data.Binding"⟩,
    ⟨"Windows.UI.Xaml.Media.Brush",
      some "Microsoft.UI.Xaml.Media.Brush"⟩,
    ⟨"Windows.UI.Xaml.Media.SolidColorBrush",
      some "Microsoft.UI.Xaml.Media.SolidColorBrush"⟩,
    ⟨"Windows.UI.Xaml.Navigation.NavigationEventArgs",
      some "Microsoft.UI.Xaml.Navigation.NavigationEventArgs"⟩,
    ⟨"Windows.UI.Core.CoreDispatcher",
      some "Microsoft.UI.Dispatching.DispatcherQueue"⟩,
    ⟨"Windows.UI.Colors",
      some "Microsoft.UI.Colors"⟩,
    ⟨"Windows.UI.Xaml.Data.BindableAttribute",
      some "Microsoft.UI.Xaml.Data.BindableAttribute"⟩,
    ⟨"Windows.UI.Xaml.Markup.ContentPropertyAttribute",
      some "Microsoft.UI.Xaml.Markup.ContentPropertyAttribute"⟩,
    ⟨"Windows.UI.Xaml.TemplatePartAttribute",
      some "Microsoft.UI.Xaml.TemplatePartAttribute"⟩,
    ⟨"Windows.UI.Core.CoreWindow", none⟩]

def builtin : TypeMap :=
  extend (extend Dictionary.empty web) windows

def fileExtension : String :=
  "typemap"

/-
  The renamings that always apply and those of some files; a
  file that is not valid adds none.
-/
def load (files : List AdditionalText) : TypeMap :=
  files.foldl
    (fun map f =>
      if hasExtension f.path fileExtension then
        extend map ((TypeMapping.parseTable f.path f.text).toOption.getD [])
      else map)
    builtin

end TypeMap

end Retarget
